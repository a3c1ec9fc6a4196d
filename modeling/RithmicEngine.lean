import RithmicEngine.Execution.UnownedFills
import RithmicEngine.Execution.AbandonedEntry
import RithmicEngine.Execution.StopGuards
import RithmicEngine.Execution.ExitOrders
import RithmicEngine.Execution.StopTable
import RithmicEngine.Execution.SquareBook
import RithmicEngine.Collector.BboTable
import RithmicEngine.Execution.BrokerLimits
import RithmicEngine.Execution.FreshStart
import RithmicEngine.Execution.InstanceLock
import RithmicEngine.Paper.PgFeed
import RithmicEngine.Execution.EodBackstop
import RithmicEngine.Execution.WsWriteQueue
import RithmicEngine.Execution.GapClosing
import RithmicEngine.Collector.RowKeeping
import RithmicEngine.Paper.ManualDisable
import RithmicEngine.Paper.Admission
import RithmicEngine.Paper.MirrorTape
import RithmicEngine.Paper.ResumedPosition
import RithmicEngine.Execution.StopWindow
import RithmicEngine.Execution.AveragePrice
import RithmicEngine.Execution.UnwindRoutes
import RithmicEngine.Execution.CancelOutcomes
import RithmicEngine.Execution.ExitRejections
import RithmicEngine.Execution.ReconcilerClock
import RithmicEngine.Paper.PaperLedger
import RithmicEngine.Paper.PaperStops
import RithmicEngine.Execution.TrendBounds
import RithmicEngine.Execution.TrendBars
import RithmicEngine.Execution.ValueArea
import RithmicEngine.Execution.TrendGate
import RithmicEngine.Execution.TrendJson
import RithmicEngine.Paper.FleetConfig
import RithmicEngine.Collector.Redaction
import RithmicEngine.Collector.AuditLog
import RithmicEngine.Execution.SavedRange
import RithmicEngine.Execution.MtfRollovers
import RithmicEngine.Execution.MtfSeeds
import RithmicEngine.Paper.DaylightRule
import RithmicEngine.Execution.MtfZones
import RithmicEngine.Execution.MtfBracket
import RithmicEngine.Collector.DepthTable
import RithmicEngine.Collector.LinkTimes
import RithmicEngine.Collector.Reconnect
import RithmicEngine.Execution.AccountMark
import RithmicEngine.Execution.PlacedOrders
import RithmicEngine.Execution.ProfitLock
import RithmicEngine.Collector.TickPipeline
