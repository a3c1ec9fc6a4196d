import RithmicEngine.Execution.Guards
/-!
# The table of stops

The database keeps a row for each stop the exchange may still hold, written when a
stop is submitted, cancelled or replaced and removed when it is resolved, so that a
restart can cancel or unwind it. Every order the manager cancelled and still guards
has its row, and so has the current stop, except after two notices: a failed cancel
makes a guard the stop again and removes its row, and an acknowledged cancel of the
current stop removes the row of a stop that the position still counts on.
-/
namespace RithmicEngine

open Runs

variable {host : Host}

/-- The rows of the table, and the seeded stops whose row another process wrote. -/
structure StopRows where
  rows : Finset String := ∅
  seeded : Finset String := ∅
  deriving DecidableEq

namespace StopRows

/-- What one effect does to the table. -/
def note (table : StopRows) : Effect → StopRows
  | .persist basket _ => ⟨insert basket table.rows, table.seeded.erase basket⟩
  | .remove basket => ⟨table.rows.erase basket, table.seeded⟩
  | _ => table

/-- The table after the effects, in their order. -/
def after (table : StopRows) (effects : List Effect) : StopRows := effects.foldl note table

@[simp] theorem after_nil (table : StopRows) : table.after [] = table := rfl

@[simp] theorem after_append (table : StopRows) (first second : List Effect) :
    table.after (first ++ second) = (table.after first).after second := List.foldl_append

@[simp] theorem after_order (table : StopRows) (role : OrderRole) (request : OrderRequest)
    (accepted : Bool) : table.after [.order role request accepted] = table := rfl

@[simp] theorem after_cancel (table : StopRows) (id : String) :
    table.after [.cancel id] = table := rfl

@[simp] theorem after_flatFill (table : StopRows) (basket : String) :
    table.after [.flatFill basket] = table := rfl

@[simp] theorem after_persistServerNotice (table : StopRows) (client server : String) :
    table.after (host.persistServerNotice client server) = table := by
  simp only [Host.persistServerNotice]
  split
  · rfl
  · rfl

theorem after_persistNotice (saves : host.persistCb = true) (table : StopRows) (basket : String)
    (wasBuyStop : Bool) : table.after (host.persistNotice basket wasBuyStop) =
      ⟨insert basket table.rows, table.seeded.erase basket⟩ := by
  rw [Host.persistNotice, if_pos saves]
  rfl

/-- Removing a row: the others stay. -/
theorem mem_after_removeNotice {table : StopRows} {removed basket : String}
    (other : basket ≠ removed) :
    basket ∈ (table.after (host.removeNotice removed)).rows ↔ basket ∈ table.rows := by
  simp only [Host.removeNotice]
  split
  · exact Finset.mem_erase.trans (and_iff_right other)
  · exact Iff.rfl

variable (table : StopRows)

theorem after_removeNotice_seeded (removed : String) :
    (table.after (host.removeNotice removed)).seeded = table.seeded := by
  simp only [Host.removeNotice]
  split
  · rfl
  · rfl

/-- Removing several rows: the others stay. -/
theorem mem_after_removeNotices {removed : List String} {basket : String}
    (other : basket ∉ removed) :
    basket ∈ (table.after (removed.flatMap host.removeNotice)).rows ↔ basket ∈ table.rows := by
  induction removed generalizing table with
  | nil => exact Iff.rfl
  | cons head rest ih =>
    obtain ⟨apart, elsewhere⟩ := not_or.mp (fun inside => other (List.mem_cons.mpr inside))
    rw [List.flatMap_cons, after_append, ih _ elsewhere]
    exact mem_after_removeNotice apart

theorem after_removeNotices_seeded (removed : List String) :
    (table.after (removed.flatMap host.removeNotice)).seeded = table.seeded := by
  induction removed generalizing table with
  | nil => rfl
  | cons head rest ih =>
    rw [List.flatMap_cons, after_append, ih, after_removeNotice_seeded]

/-- Mappings and cancels leave the table alone. -/
theorem after_quiet {effects : List Effect} (quiet : Ledger.Quiet effects) (table : StopRows) :
    table.after effects = table := by
  induction effects generalizing table with
  | nil => rfl
  | cons effect rest ih =>
    have tail : Ledger.Quiet rest :=
      fun later inside => quiet later (List.mem_cons_of_mem effect inside)
    obtain ⟨id, rfl⟩ | ⟨client, server, rfl⟩ := quiet effect List.mem_cons_self
    · exact ih tail table
    · exact ih tail table

theorem after_cancels {effects : List Effect} (only : Ledger.Cancels effects)
    (table : StopRows) : table.after effects = table :=
  after_quiet (fun effect inside => Or.inl (only effect inside)) table

end StopRows

namespace Ledger

/-- Every guard has its row, unless it was only seeded. -/
def GuardRows (table : StopRows) (l : Ledger) : Prop :=
  ∀ basket ∈ l.guards, basket ∈ table.seeded ∨ (basket ∈ table.rows ∧ basket ≠ "")

/-- The current stop and every guard have their rows, seeded guards aside. -/
structure Rows (table : StopRows) (l : Ledger) : Prop where
  stop : l.stop ≠ "" → l.stop ∈ table.rows ∧ (l.stop ∈ l.guards → l.stop ∈ table.seeded)
  guards : GuardRows table l

variable {table : StopRows} {l l' : Ledger} {basket : String}

/-- Inserting a guard together with its row keeps every guard's row. -/
theorem GuardRows.persist (saves : host.persistCb = true) {wasBuy wasBuyStop : Bool}
    (rows : GuardRows table l) (known : basket ≠ "")
    (guards : l'.guards = l.guards.insert basket wasBuy) :
    GuardRows (table.after (host.persistNotice basket wasBuyStop)) l' := by
  rw [StopRows.after_persistNotice saves]
  intro other inside
  rw [guards, Table.mem_insert] at inside
  by_cases same : other = basket
  · right
    rw [same]
    exact ⟨Finset.mem_insert_self basket table.rows, known⟩
  · refine (rows other (inside.resolve_left same)).imp ?_ ?_
    · exact fun seeded => Finset.mem_erase.mpr ⟨same, seeded⟩
    · exact fun row => ⟨Finset.mem_insert_of_mem row.1, row.2⟩

/-- Dropping a guard together with its row keeps the rows of the others. -/
theorem GuardRows.remove (rows : GuardRows table l) (guards : l'.guards = l.guards.erase basket) :
    GuardRows (table.after (host.removeNotice basket)) l' := by
  intro other inside
  rw [guards, Table.mem_erase] at inside
  refine (rows other inside.2).imp ?_ ?_
  · rw [StopRows.after_removeNotice_seeded]
    exact id
  · exact fun row => ⟨(StopRows.mem_after_removeNotice inside.1).mpr row.1, row.2⟩

/-- A cancelled stop keeps its row and becomes a guard. -/
theorem GuardRows.cancelStop (saves : host.persistCb = true)
    (rows : GuardRows (table.after l.sent) l) (stopped : l.stop ≠ "") :
    GuardRows (table.after (l.cancelStop host).sent) (l.cancelStop host) := by
  have sent : table.after (l.cancelStop host).sent =
      (table.after l.sent).after (host.persistNotice l.stop (decide (l.direction = .sell))) := by
    simp only [Ledger.cancelStop, StopRows.after_append, StopRows.after_cancel]
    split
    · rfl
    · rw [StopRows.after_persistServerNotice]
  rw [sent]
  exact rows.persist saves stopped rfl

theorem Rows.bare (guards : GuardRows table l) (bare : l.stop = "") : Rows table l where
  stop := fun stopped => absurd bare stopped
  guards := guards

theorem Rows.congr {table' : StopRows} (rows : Rows table l) (same : table' = table)
    (stop : l'.stop = l.stop) (guards : l'.guards = l.guards) : Rows table' l' := by
  subst same
  constructor
  · rw [stop, guards]
    exact rows.stop
  · intro basket inside
    rw [guards] at inside
    exact rows.guards basket inside

/-- Placing an order leaves the table alone. -/
theorem after_placed (table : StopRows) (l : Ledger) (role : OrderRole) (request : OrderRequest)
    (taken : Bool) :
    table.after (l.sent ++ [.order role request taken]) = table.after l.sent := by
  rw [StopRows.after_append, StopRows.after_order]

/-- Every move keeps the rows. -/
theorem Move.rows (saves : host.persistCb = true) (move : Move host l l') (shape : Shape l)
    (fresh : Fresh host l) (rows : Rows (table.after l.sent) l) :
    Rows (table.after l'.sent) l' := by
  cases move with
  | enter direction regime request idle =>
    exact rows.congr (after_placed table l _ _ _) (shape.flat idle).2.2.1.symm rfl
  | refuseEntry request idle =>
    exact rows.congr (after_placed table l _ _ _) (shape.flat idle).2.2.1.symm rfl
  | abandon cancels pending only =>
    refine rows.congr ?_ (shape.pendingEntry pending).2.2.symm rfl
    simp only [Ledger.abandon, StopRows.after_append, StopRows.after_cancels only]
  | submitStop request held bare places taken =>
    have unused := fresh l.next (Nat.le_refl _)
    have sent : table.after (l.submitStop host request).sent =
        ⟨insert (host.basketId l.next) (table.after l.sent).rows,
          (table.after l.sent).seeded.erase (host.basketId l.next)⟩ := by
      simp only [Ledger.submitStop, StopRows.after_append, StopRows.after_order,
        StopRows.after_persistNotice saves]
    rw [sent]
    constructor
    · intro _
      exact ⟨Finset.mem_insert_self _ _, fun guarded => absurd guarded unused.guards⟩
    · intro basket inside
      have other : basket ≠ host.basketId l.next := by
        rintro rfl
        exact unused.guards inside
      refine (rows.guards basket inside).imp ?_ ?_
      · exact fun seeded => Finset.mem_erase.mpr ⟨other, seeded⟩
      · exact fun row => ⟨Finset.mem_insert_of_mem row.1, row.2⟩
  | refuseStop request held bare =>
    exact rows.congr (after_placed table l _ _ _) bare.symm rfl
  | cancelStop held stopped => exact .bare (rows.guards.cancelStop saves stopped) rfl
  | sendExit request held bare => exact rows.congr (after_placed table l _ _ _) rfl rfl
  | refuseExit request held bare => exact rows.congr (after_placed table l _ _ _) rfl rfl
  | guardExit id closing sent names =>
    have noted : table.after (l.guardExit host id).sent =
        (table.after l.sent).after (host.persistNotice l.exit (decide (l.direction = .sell))) := by
      simp only [Ledger.guardExit, StopRows.after_append, StopRows.after_cancel]
    refine .bare ?_ (shape.pendingExit closing).2
    rw [noted]
    exact rows.guards.persist saves sent rfl
  | recancel cancels only =>
    refine rows.congr ?_ rfl rfl
    simp [Ledger.recancel, StopRows.after_cancels only]

theorem Walk.rows (saves : host.persistCb = true) (walk : Walk host l l') (shape : Shape l)
    (fresh : Fresh host l) (rows : Rows (table.after l.sent) l) :
    Rows (table.after l'.sent) l' := by
  induction walk with
  | refl => exact rows
  | tail walk move ih =>
    exact move.rows saves (Walk.shape walk shape) (Walk.fresh walk fresh) ih

/-- A close leaves every guard its row: the filled order's guard and row are dropped
together, the stop is cancelled with a row, and the purge drops guards with theirs. -/
theorem GuardRows.close (saves : host.persistCb = true) (filled : String)
    (rows : GuardRows (table.after l.sent) l) :
    GuardRows (table.after (l.close host filled).sent) (l.close host filled) := by
  have dropped : GuardRows (table.after (l.dropFilled host filled).sent)
      (l.dropFilled host filled) := by
    simp only [Ledger.dropFilled]
    split
    · rw [StopRows.after_append]
      exact rows.remove rfl
    · exact rows
  have free : filled ∉ (l.dropFilled host filled).guards := by
    simp only [Ledger.dropFilled]
    split
    · simp only [Table.mem_erase, ne_eq, not_true_eq_false, false_and, not_false_eq_true]
    · assumption
  have settled : GuardRows (table.after ((l.dropFilled host filled).settleStop host filled).sent)
      ((l.dropFilled host filled).settleStop host filled) := by
    generalize l.dropFilled host filled = c at dropped free
    simp only [Ledger.settleStop]
    split_ifs with none other
    · exact dropped
    · exact dropped.cancelStop saves none
    · rw [StopRows.after_append]
      intro basket inside
      have apart : basket ≠ filled := by
        rintro rfl
        exact free inside
      refine (dropped basket inside).imp ?_ ?_
      · rw [StopRows.after_removeNotice_seeded]
        exact id
      · exact fun row => ⟨(StopRows.mem_after_removeNotice apart).mpr row.1, row.2⟩
  generalize settledIs : (l.dropFilled host filled).settleStop host filled = c at settled
  simp only [Ledger.close, settledIs, purge, reset, StopRows.after_append]
  intro basket inside
  obtain ⟨guarded, kept⟩ := (Table.mem_keep _ _ _).mp inside
  have other : basket ∉ c.guards.keys.filter (fun basket => !c.keepsGuard basket) := by
    intro purged
    have gone := (List.mem_filter.mp purged).2
    rw [show c.keepsGuard basket = true from kept] at gone
    exact absurd gone Bool.false_ne_true
  refine (settled basket guarded).imp ?_ ?_
  · intro seeded
    exact (StopRows.after_removeNotices_seeded _ _).symm ▸ seeded
  · intro row
    exact ⟨(StopRows.mem_after_removeNotices _ other).mpr row.1, row.2⟩

/-- Every fill keeps the rows. -/
theorem Filled.rows (saves : host.persistCb = true) {qty : Int} {isEntry : Bool}
    (filled : Filled host basket qty l isEntry l') (shape : Shape l) (fresh : Fresh host l)
    (rows : Rows (table.after l.sent) l) : Rows (table.after l'.sent) l' := by
  have bare (idle : l.state = .flat ∨ l.state = .pendingEntry) : l.stop = "" :=
    idle.elim (fun flat => (shape.flat flat).2.2.1)
      (fun pending => (shape.pendingEntry pending).2.2)
  -- An unwind is sent after the guard and its row are gone.
  have fired {c : Ledger} {request : OrderRequest} {taken : Bool}
      (guards : c.guards = l.guards.erase basket)
      (sent : c.sent = l.sent ++ [.flatFill basket] ++ host.removeNotice basket) :
      GuardRows (table.after (c.unwind host basket request taken true).sent)
        (c.unwind host basket request taken true) := by
    have same : table.after (c.unwind host basket request taken true).sent =
        (table.after l.sent).after (host.removeNotice basket) := by
      simp only [Ledger.unwind, Ledger.order, sent, StopRows.after_append,
        StopRows.after_order, StopRows.after_flatFill]
    rw [same]
    exact rows.guards.remove guards
  have noted : table.after (l.noteFill basket).sent = table.after l.sent := by
    rw [noteFill, StopRows.after_append, StopRows.after_flatFill]
  cases filled with
  | spurious => exact rows
  | late => exact rows.congr (after_placed table l _ _ _) rfl rfl
  | mismatch => exact rows
  | partialEntry => exact rows
  | entered pending named whole protect =>
    have resumes : Resumes l l.fillEntry := Or.inr (Or.inr ⟨pending, rfl⟩)
    have unused : l.fillEntry.Fresh host := by
      intro n later
      exact { fresh n later with abandoned := fun _ => (fresh n later).known }
    exact protect.rows saves (resumes.shape shape) unused (rows.congr rfl rfl rfl)
  | lastGuard request idle remembered named places => exact .bare (fired rfl rfl) (bare idle)
  | guard request wasBuy idle other guarded places => exact .bare (fired rfl rfl) (bare idle)
  | unwound => exact rows.congr noted rfl rfl
  | unknown => exact rows.congr noted rfl rfl
  | partialExit => exact rows
  | closed held whole => exact .bare (rows.guards.close saves basket) rfl

/-- The call acknowledges the cancel of the current stop. -/
def AcksStop (l : Ledger) : Op → Prop
  | .cancelConfirmed client => l.stop ≠ "" ∧ client = l.stop
  | .cancelConfirmedByServer server => l.stop ≠ "" ∧ l.servers.lookup server = some l.stop
  | _ => False

instance (l : Ledger) (op : Op) : Decidable (l.AcksStop op) := by
  induction op using Op.casesOn
  all_goals
    dsimp only [AcksStop]
    infer_instance

/-- The call makes a guard the protective stop again. -/
def Revives (l : Ledger) (op : Op) : Prop :=
  match op with
  | .cancelFailed id => l.Readopts op ((l.servers.lookup id).getD id)
  | _ => False

instance (l : Ledger) (op : Op) : Decidable (l.Revives op) := by
  induction op using Op.casesOn
  all_goals
    dsimp only [Revives]
    infer_instance

/-- An acknowledged cancel removes the row of its order, which is not the stop. -/
theorem Rows.acknowledge {client : String} {servers : Table String String}
    (rows : Rows (table.after l.sent) l) (other : l.stop ≠ "" → l.stop ≠ client) :
    Rows (table.after (l.acknowledge host client servers).sent)
      (l.acknowledge host client servers) := by
  have sent : table.after (l.acknowledge host client servers).sent =
      (table.after l.sent).after (host.removeNotice client) := by
    rw [Ledger.acknowledge, StopRows.after_append]
  rw [sent]
  refine ⟨?_, rows.guards.remove rfl⟩
  intro stopped
  obtain ⟨row, only⟩ := rows.stop stopped
  refine ⟨(StopRows.mem_after_removeNotice (other stopped)).mpr row, ?_⟩
  intro guarded
  rw [StopRows.after_removeNotice_seeded]
  exact only ((Table.mem_erase _ _ _).mp guarded).2

/-- A rejected stop takes its row with it. -/
theorem Rows.dropStop (rows : Rows (table.after l.sent) l) :
    Rows (table.after (l.dropStop host).sent) (l.dropStop host) := by
  refine .bare ?_ rfl
  simp only [Ledger.dropStop, StopRows.after_append]
  intro basket inside
  rw [StopRows.after_removeNotice_seeded]
  by_cases same : basket = l.stop
  · by_cases none : l.stop = ""
    · refine (rows.guards basket inside).imp_right (fun row => ?_)
      exact absurd (same.trans none) row.2
    · left
      rw [same]
      exact (rows.stop none).2 (same ▸ inside)
  · refine (rows.guards basket inside).imp_right (fun row => ?_)
    exact ⟨(StopRows.mem_after_removeNotice same).mpr row.1, row.2⟩

/-- The guards that a call seeds. -/
def seedsRows : Op → Finset String
  | .seedStop basket _ => {basket}
  | _ => ∅

/-- Every step that neither makes a guard the stop again nor acknowledges the
cancel of the stop keeps the rows, the guards it seeds aside. -/
theorem Stepped.rows (saves : host.persistCb = true) {op : Op} (stepped : Stepped host l op l')
    (shape : Shape l) (fresh : Fresh host l) (stays : ¬l.Revives op) (unacked : ¬l.AcksStop op)
    (rows : Rows (table.after l.sent) l) :
    Rows ⟨(table.after l'.sent).rows, (table.after l'.sent).seeded ∪ seedsRows op⟩ l' := by
  have widen {seeds : Finset String} (kept : Rows (table.after l'.sent) l') :
      Rows ⟨(table.after l'.sent).rows, (table.after l'.sent).seeded ∪ seeds⟩ l' := by
    constructor
    · intro stopped
      obtain ⟨row, only⟩ := kept.stop stopped
      exact ⟨row, fun guarded => Finset.mem_union_left _ (only guarded)⟩
    · intro basket inside
      exact (kept.guards basket inside).imp_left (Finset.mem_union_left _)
  cases stepped with
  | own initiates walk => exact widen (Walk.rows saves walk shape fresh rows)
  | ignored notifies => exact widen rows
  | filled basket price qty isEntry filled => exact widen (filled.rows saves shape fresh rows)
  | rejectedEntry basket pending named =>
    exact widen (rows.congr rfl (shape.pendingEntry pending).2.2.symm rfl)
  | rejectedExit basket closing named walk =>
    have resumes : Resumes l l.reopen := Or.inr (Or.inl ⟨closing, rfl⟩)
    have unused : l.reopen.Fresh host := by
      intro n later
      exact { fresh n later with exit := (fresh n later).known }
    exact widen (Walk.rows saves walk (resumes.shape shape) unused (rows.congr rfl rfl rfl))
  | rejectedStop basket named => exact widen rows.dropStop
  | ackClient client =>
    exact widen (rows.acknowledge (fun stopped same => unacked ⟨stopped, same.symm⟩))
  | ackServer server client mapped =>
    refine widen (rows.acknowledge ?_)
    rintro stopped rfl
    exact unacked ⟨stopped, mapped⟩
  | readopted id client server held inside own routes =>
    have named : client = (l.servers.lookup id).getD id := routes.names
    refine absurd ?_ stays
    rw [Revives, ← named]
    exact ⟨held, routes.names, inside, own, routes.unmapped⟩
  | mapStop client server named known =>
    refine widen (rows.congr ?_ rfl rfl)
    rw [Ledger.mapStop, StopRows.after_append, StopRows.after_persistServerNotice]
  | mapGuard client server effects guarded quiet =>
    refine widen (rows.congr ?_ rfl rfl)
    rw [Ledger.mapGuard, StopRows.after_append, StopRows.after_quiet quiet]
  | mapCancelled client server effects quiet =>
    refine widen (rows.congr ?_ rfl rfl)
    rw [StopRows.after_append, StopRows.after_quiet quiet]
  | mapCancelledGuard client server effects guarded quiet =>
    refine widen (rows.congr ?_ rfl rfl)
    rw [Ledger.mapGuard, Ledger.mapOrder, StopRows.after_append, StopRows.after_quiet quiet]
  | externalClose price reason held =>
    by_cases none : l.stop = ""
    · refine widen (rows.congr ?_ none.symm ?_)
      · simp [closeExternally, withdrawStop, reset, none]
      · simp [closeExternally, withdrawStop, reset, none]
    · have cancelled := rows.guards.cancelStop saves none
      refine widen (.bare ?_ rfl)
      simp only [closeExternally, withdrawStop, reset, none, ↓reduceIte]
      exact cancelled
  | seedStop seeded wasBuy =>
    constructor
    · intro stopped
      obtain ⟨row, only⟩ := rows.stop stopped
      refine ⟨row, fun guarded => ?_⟩
      rcases (Table.mem_insert _ _ _ _).mp guarded with same | before
      · exact Finset.mem_union_right _ (Finset.mem_singleton.mpr same)
      · exact Finset.mem_union_left _ (only before)
    · intro basket inside
      rcases (Table.mem_insert _ _ _ _).mp inside with same | before
      · exact Or.inl (Finset.mem_union_right _ (Finset.mem_singleton.mpr same))
      · exact (rows.guards basket before).imp_left (Finset.mem_union_left _)
  | _ => exact widen (rows.congr rfl rfl rfl)

end Ledger

namespace OrderManager

/-! ## The table along a run -/

/-- The table after a step: the callbacks' rows, and what the step seeds. -/
def noteRows (table : StopRows) (_ : OrderManager) (call : Call) (after : OrderManager) :
    StopRows :=
  ⟨(table.after after.outbox).rows,
    (table.after after.outbox).seeded ∪ Ledger.seedsRows call.op⟩

/-- The call neither makes a guard the stop again nor acknowledges the cancel of the
current stop. -/
def Ordinary (s : OrderManager) (call : Call) : Prop :=
  ¬s.ledger.Revives call.op ∧ ¬s.ledger.AcksStop call.op
deriving Decidable

/-- The book is sound, its ids are drawn from the start on, and the rows are there. -/
structure Tabled (host : Host) (seq : Nat) (pair : OrderManager × StopRows) : Prop where
  shape : pair.1.ledger.Shape
  fresh : pair.1.ledger.Fresh host
  drawn : seq ≤ pair.1.seq
  rows : Ledger.Rows pair.2 pair.1.ledger

/-- An ordinary call keeps the rows of stops in step with the manager. -/
theorem Tabled.step (live : host.Live) (saves : host.persistCb = true) {seq : Nat}
    {pair : OrderManager × StopRows} {call : Call} (tabled : Tabled host seq pair)
    (ordinary : Ordinary pair.1 call) (foreign : Ledger.Foreign host seq call.op) :
    Tabled host seq (observe (OrderManager.step host) noteRows pair call) := by
  obtain ⟨s, table⟩ := pair
  obtain ⟨shape, fresh, drawn, rows⟩ := tabled
  have stepped := step_refines live s call shape
  have cleared : s.cleared.Shape := shape.congr rfl rfl rfl rfl rfl
  have unused : s.cleared.Fresh host := fun n later => { fresh n later with }
  have later : s.seq ≤ (OrderManager.step host s call).seq := stepped.next_le
  have start : Ledger.Rows (table.after s.cleared.sent) s.cleared := rows.congr rfl rfl rfl
  exact {
    shape := step_shape live s call shape
    fresh := stepped.fresh unused (fun n low => foreign n (drawn.trans low))
    drawn := drawn.trans later
    rows := stepped.rows saves cleared unused ordinary.1 ordinary.2 start }

/-- In every run of ordinary steps from a newly constructed manager, whatever the
table held before, the current stop has its row, and so has every guard that was
put there by a cancel. -/
theorem stops_in_table (live : host.Live) (saves : host.persistCb = true)
    (risk : RiskManager) (seq : Nat) (stored : Finset String) (calls : List Call)
    (foreign : ∀ call ∈ calls, Ledger.Foreign host seq call.op)
    (ordinary : Along (observe (step host) noteRows) (fun pair call => Ordinary pair.1 call)
      (fresh risk seq, ⟨stored, ∅⟩) calls) :
    let final := run (observe (step host) noteRows) (fresh risk seq, ⟨stored, ∅⟩) calls
    (final.1.pos.basketIdStop ≠ "" → final.1.pos.basketIdStop ∈ final.2.rows) ∧
      ∀ basket ∈ final.1.cancelledStops, basket ∉ final.2.seeded → basket ∈ final.2.rows := by
  have start : Tabled host seq (fresh risk seq, ⟨stored, ∅⟩) := by
    refine ⟨fresh_shape risk seq, fresh_fresh risk seq, Nat.le_refl seq, .bare ?_ rfl⟩
    intro basket inside
    obtain ⟨wasBuy, found⟩ := (Table.mem_iff_lookup _ _).mp inside
    simp only [ledger, fresh, Table.lookup_empty, reduceCtorEq] at found
  have final := run_invariant (observe (step host) noteRows) (Tabled host seq)
    (fun pair call => Ordinary pair.1 call ∧ Ledger.Foreign host seq call.op)
    (fun _ _ tabled here => tabled.step live saves here.1 here.2) _ calls start
    (along_and_of_mem _ _ calls ordinary foreign)
  constructor
  · intro stopped
    exact (final.rows.stop stopped).1
  · intro basket inside unseeded
    exact ((final.rows.guards basket inside).resolve_left unseeded).1

/-- A trade whose stop is trailed once. -/
def trailedStop : List Call :=
  [⟨1, .signal .buy 100 0⟩, ⟨2, .fill "MNQ-0-0" 100 1 true⟩, ⟨3, .checkExternal 110 (some 105)⟩]

/-- A stop that was trailed is in the table. -/
theorem trailed_stop_in_table :
    let final := run (observe (step .accepting) noteRows) (fresh {} 0, ⟨∅, ∅⟩) trailedStop
    (final.1.pos.basketIdStop ≠ "" → final.1.pos.basketIdStop ∈ final.2.rows) ∧
      ∀ basket ∈ final.1.cancelledStops, basket ∉ final.2.seeded → basket ∈ final.2.rows :=
  stops_in_table Host.accepting_live rfl {} 0 ∅ trailedStop
    (fun call inside => Ledger.foreign_of_not_brings (by revert call; decide +kernel))
    (by decide +kernel)

/-- A stop whose cancel failed is the stop again and has lost its row. -/
theorem readopted_stop_without_row :
    ¬∀ (host : Host), host.Live → host.persistCb = true → host.removeCb = true →
      ∀ (risk : RiskManager) (seq : Nat) (stored : Finset String) (calls : List Call),
      (∀ call ∈ calls, Ledger.Foreign host seq call.op) →
      let final := run (observe (step host) noteRows) (fresh risk seq, ⟨stored, ∅⟩) calls
      (final.1.pos.basketIdStop ≠ "" → final.1.pos.basketIdStop ∈ final.2.rows) ∧
        ∀ basket ∈ final.1.cancelledStops, basket ∉ final.2.seeded → basket ∈ final.2.rows := by
  intro tabled
  have row := (tabled .accepting Host.accepting_live rfl rfl {} 0 ∅
    (trailedStop ++ [⟨4, .cancelFailed "MNQ-0-1"⟩])
    (fun call inside => Ledger.foreign_of_not_brings (by revert call; decide +kernel))).1
  revert row
  decide +kernel

end OrderManager

end RithmicEngine
