import RithmicEngine.Base.Runs
import RithmicEngine.Base.SessionLocks
import Mathlib.Data.Fintype.Basic
/-!
# One executor per account

An executor process runs session cycles. A cycle opens a connection to the database
and asks for the advisory lock of its account; without the lock the process ends. A
cycle whose connection cannot be opened goes on without one and without the lock. The
server drops the lock with the session: at the end of the cycle, at the end of the
process, when the connection breaks, and when the connection is reset, after which the
lock is asked for again and only logged where it is refused.

In a cycle past the database setup the signals of the strategy reach the order manager,
and its orders the exchange. An outage is the end of every session, and connections
that cannot be opened until it is over. Every process trades live.
-/
namespace RithmicEngine

universe u

/-- The connection of a cycle, and whether it is taken to hold the instance lock. -/
structure OrbDb where
  instanceLockHeld : Bool := false
  deriving DecidableEq, Repr

/-- FNV-1a over the account; the strategy is left out on purpose. -/
def instanceLockKey (accountLabel _strategy : String) : UInt64 :=
  ("nq_executor:" ++ accountLabel).toUTF8.data.toList.foldl
    (fun h c => (h ^^^ c.toUInt64) * 1099511628211) 1469598103934665603

inductive Activity
  | idle
  | cycling
  | exited
  deriving DecidableEq, Repr

/-- An executor process. -/
structure ExecutorProcess where
  accountLabel : String
  strategy : String
  activity : Activity := .idle
  db : Option OrbDb := none
  deriving DecidableEq, Repr

def ExecutorProcess.lockKey (x : ExecutorProcess) : UInt64 :=
  instanceLockKey x.accountLabel x.strategy

/-- The processes and the locks of the server. -/
structure Deployment (P : Type u) where
  process : P → ExecutorProcess
  locks : SessionLocks UInt64 P := {}

/-- What happens to a process. The database may be out of reach, and it may fail to
answer the question for the lock. -/
inductive LockEvent (P : Type u)
  | beginCycle (p : P) (reachable answers : Bool)
  | endCycle (p : P)
  | exit (p : P)
  | sessionEnds (p : P)
  | reconnect (p : P) (reachable answers : Bool)

namespace Deployment

variable {P : Type u} [DecidableEq P]

def setProcess (p : P) (x : ExecutorProcess) (d : Deployment P) : Deployment P :=
  { d with process := Function.update d.process p x }

def endSession (p : P) (d : Deployment P) : Deployment P :=
  { d with locks := d.locks.endSession p }

/-- Ask for the instance lock of the account. -/
def acquireInstanceLock (p : P) (answers : Bool) (d : Deployment P) : Deployment P × Bool :=
  if answers then
    let (locks, acquired) := d.locks.tryLock (d.process p).lockKey p
    ({ d with locks := locks }, acquired)
  else (d, false)

/-- The database setup of a cycle. -/
def beginCycle (p : P) (reachable answers : Bool) (d : Deployment P) : Deployment P :=
  let x := d.process p
  if x.activity = .idle then
    if reachable then
      let (d, acquired) := d.acquireInstanceLock p answers
      if acquired then
        d.setProcess p { x with activity := .cycling, db := some { instanceLockHeld := true } }
      else (d.endSession p).setProcess p { x with activity := .exited, db := none }
    else
      -- The connection failed: the cycle goes on, and its trades are not persisted.
      d.setProcess p { x with activity := .cycling, db := none }
  else d

/-- The cycle returns and its connection is closed. -/
def endCycle (p : P) (d : Deployment P) : Deployment P :=
  let x := d.process p
  if x.activity = .cycling then
    (d.endSession p).setProcess p { x with activity := .idle, db := none }
  else d

def exit (p : P) (d : Deployment P) : Deployment P :=
  (d.endSession p).setProcess p { d.process p with activity := .exited, db := none }

/-- The connection is reset: its session ends, and a new one asks again for a lock that
was held. -/
def reconnect (p : P) (reachable answers : Bool) (d : Deployment P) : Deployment P :=
  let x := d.process p
  match x.db with
  | none => d
  | some db =>
    let d := d.endSession p
    if reachable then
      if db.instanceLockHeld then
        let (d, acquired) := d.acquireInstanceLock p answers
        d.setProcess p { x with db := some { instanceLockHeld := acquired } }
      else d
    else d

def step (d : Deployment P) (event : LockEvent P) : Deployment P :=
  match event with
  | .beginCycle p reachable answers => d.beginCycle p reachable answers
  | .endCycle p => d.endCycle p
  | .exit p => d.exit p
  | .sessionEnds p => d.endSession p
  | .reconnect p reachable answers => d.reconnect p reachable answers

/-! ## Exclusion -/

/-- The process is in a cycle in which a signal can become an order. -/
def Trades (d : Deployment P) (p : P) : Prop := (d.process p).activity = .cycling
deriving Decidable

/-- At most one process trades. -/
def Exclusive (d : Deployment P) : Prop := ∀ p q, d.Trades p → d.Trades q → p = q

/-- The server has the lock of the account for the process. -/
def Guarded (d : Deployment P) (p : P) : Prop :=
  d.locks.holder (d.process p).lockKey = some p

/-- Whose lock is lost: the session of its cycle has ended, or the cycle began without one, and
no reset of the connection has got the lock back since. A reset asks again only for a lock that
was held, and its question may stay without an answer. -/
def note (lost : P → Bool) (d : Deployment P) (event : LockEvent P) (_ : Deployment P) : P → Bool :=
  match event with
  | .beginCycle p reachable _ =>
    if (d.process p).activity = .idle then Function.update lost p !reachable else lost
  | .sessionEnds p => Function.update lost p true
  | .reconnect p reachable answers =>
    Function.update lost p
      !(reachable && answers && (d.process p).db.any OrbDb.instanceLockHeld)
  | .endCycle _ | .exit _ => lost

/-- No cycle begins without the database, and none begins while the lock of a process in a
cycle is lost. -/
def Guards (d : Deployment P) (lost : P → Bool) : LockEvent P → Prop
  | .beginCycle p reachable _ => (d.process p).activity = .idle →
      reachable = true ∧ ∀ q, d.Trades q → lost q = false
  | _ => True

/-- Every process is of the account. -/
def OneAccount (account : String) (d : Deployment P) : Prop :=
  ∀ p, (d.process p).accountLabel = account

omit [DecidableEq P] in
/-- Processes of one account share a lock, whatever their engine and strategy. -/
theorem OneAccount.lockKey_eq {account : String} {d : Deployment P}
    (same : OneAccount account d) (p q : P) :
    (d.process p).lockKey = (d.process q).lockKey := by
  rw [ExecutorProcess.lockKey, ExecutorProcess.lockKey, instanceLockKey, instanceLockKey, same p,
    same q]

omit [DecidableEq P] in
/-- Where no more processes trade than before, exclusion stays. -/
theorem Exclusive.mono {d e : Deployment P} (exclusive : Exclusive d)
    (fewer : ∀ q, e.Trades q → d.Trades q) : Exclusive e :=
  fun p q first second => exclusive p q (fewer p first) (fewer q second)

/-! ## One event -/

variable {answers : Bool} (p : P)

theorem setProcess_self (x : ExecutorProcess) (d : Deployment P) :
    (d.setProcess p x).process p = x := Function.update_self ..

theorem setProcess_other {p q : P} (other : q ≠ p) (x : ExecutorProcess) (d : Deployment P) :
    (d.setProcess p x).process q = d.process q := Function.update_of_ne other ..

@[simp] theorem setProcess_trades (p q : P) (x : ExecutorProcess) (d : Deployment P) :
    (d.setProcess p x).Trades q ↔ if q = p then x.activity = .cycling else d.Trades q := by
  simp only [Trades, setProcess, Function.update_apply]
  split
  · exact Iff.rfl
  · exact Iff.rfl

theorem acquireInstanceLock_process (answers : Bool) (d : Deployment P) :
    (d.acquireInstanceLock p answers).1.process = d.process := by
  simp only [acquireInstanceLock]
  split
  · rfl
  · rfl

theorem acquireInstanceLock_acquired (answers : Bool) (d : Deployment P) :
    (d.acquireInstanceLock p answers).2 = true ↔
      answers = true ∧ d.locks.Free (d.process p).lockKey p := by
  simp only [acquireInstanceLock]
  cases answers with
  | true =>
    simp only [↓reduceIte, true_and]
    exact SessionLocks.tryLock_granted _ _ _
  | false => simp

/-- No event takes a process to another account. -/
theorem step_oneAccount {account : String} {d : Deployment P} (same : OneAccount account d)
    (event : LockEvent P) : OneAccount account (d.step event) := by
  have set (p : P) (x : ExecutorProcess) (e : Deployment P) (kept : e.process = d.process)
      (label : x.accountLabel = (d.process p).accountLabel) :
      OneAccount account (e.setProcess p x) := by
    intro q
    simp only [setProcess, Function.update_apply]
    split
    · exact label.trans (same p)
    · rw [kept]
      exact same q
  cases event with
  | beginCycle p reachable answers =>
    have kept := acquireInstanceLock_process p answers d
    simp only [step, beginCycle]
    split_ifs
    · exact set p _ _ kept rfl
    · exact set p _ _ kept rfl
    · exact set p _ _ rfl rfl
    · exact same
  | endCycle p =>
    simp only [step, endCycle]
    split
    · exact set p _ _ rfl rfl
    · exact same
  | exit p => exact set p _ _ rfl rfl
  | sessionEnds p => exact same
  | reconnect p reachable answers =>
    have kept := acquireInstanceLock_process p answers (d.endSession p)
    simp only [step, reconnect]
    split
    · exact same
    · split_ifs
      · exact set p _ _ kept rfl
      · exact same
      · exact same

/-- A refused question, and one without an answer, changes nothing. -/
theorem acquireInstanceLock_refused {p : P} {d : Deployment P}
    (refused : (d.acquireInstanceLock p answers).2 = false) :
    (d.acquireInstanceLock p answers).1 = d := by
  unfold acquireInstanceLock at refused ⊢
  split at refused
  · have taken : ¬d.locks.Free (d.process p).lockKey p := by
      rw [← SessionLocks.tryLock_granted]
      exact Bool.eq_false_iff.mp refused
    rw [if_pos ‹_›, SessionLocks.tryLock, if_neg taken]
  · rw [if_neg ‹_›]

/-- A process that was granted the lock has it. -/
theorem acquireInstanceLock_holder {p : P} {d : Deployment P}
    (granted : (d.acquireInstanceLock p answers).2 = true) :
    (d.acquireInstanceLock p answers).1.locks.holder (d.process p).lockKey = some p := by
  unfold acquireInstanceLock at granted ⊢
  split at granted
  · rw [if_pos ‹_›]
    exact SessionLocks.tryLock_holder granted
  · exact absurd granted Bool.false_ne_true

/-- Only the process that asks gains the lock. -/
theorem acquireInstanceLock_owner {p owner : P} {d : Deployment P} {key : UInt64}
    (holds : (d.acquireInstanceLock p answers).1.locks.holder key = some owner) :
    owner = p ∨ d.locks.holder key = some owner := by
  unfold acquireInstanceLock at holds
  split at holds
  · exact SessionLocks.tryLock_owner holds
  · exact Or.inr holds

/-! ## What every event keeps -/

/-- The lock of a process in a cycle is its own unless it is lost, and no other process has a
lock. At most one is in a cycle. -/
structure Sound (d : Deployment P) (lost : P → Bool) : Prop where
  exclusive : Exclusive d
  held : ∀ p, d.Trades p → lost p = false →
    d.Guarded p ∧ (d.process p).db.any OrbDb.instanceLockHeld = true
  owners : ∀ key p, d.locks.holder key = some p → d.Trades p
  cycles : ∀ p, (d.process p).db.isSome = true → d.Trades p

variable {d : Deployment P} {lost : P → Bool} {account : String}

/-- A process that leaves its cycle gives its lock back, and no other one notices. -/
theorem Sound.leave (sound : Sound d lost) (p : P) {x : ExecutorProcess} {lost' : P → Bool}
    (gone : x.activity ≠ .cycling) (closed : x.db = none) (same : ∀ q, q ≠ p → lost' q = lost q) :
    Sound ((d.endSession p).setProcess p x) lost' := by
  have others (q : P) (trades : ((d.endSession p).setProcess p x).Trades q) :
      q ≠ p ∧ d.Trades q := by
    rw [setProcess_trades] at trades
    by_cases isP : q = p
    · rw [if_pos isP] at trades
      exact absurd trades gone
    · rw [if_neg isP] at trades
      exact ⟨isP, trades⟩
  have kept (q : P) (other : q ≠ p) :
      ((d.endSession p).setProcess p x).process q = d.process q := setProcess_other other x _
  constructor
  · exact sound.exclusive.mono fun q trades => (others q trades).2
  · intro q trades has
    obtain ⟨other, before⟩ := others q trades
    obtain ⟨guarded, flagged⟩ := sound.held q before ((same q other).symm.trans has)
    rw [Guarded, kept q other]
    exact ⟨SessionLocks.endSession_keeps guarded other, flagged⟩
  · intro key q holds
    obtain ⟨other, before⟩ := SessionLocks.endSession_owner holds
    rw [setProcess_trades, if_neg other]
    exact sound.owners key q before
  · intro q isOpen
    by_cases isP : q = p
    · subst isP
      rw [setProcess_self, closed] at isOpen
      exact absurd isOpen Bool.false_ne_true
    · rw [kept q isP] at isOpen
      rw [setProcess_trades, if_neg isP]
      exact sound.cycles q isOpen

/-- Where no lock is lost, the server refuses the lock while another process is in a cycle. -/
theorem Sound.alone (same : OneAccount account d) (sound : Sound d lost) {p : P}
    (idle : ¬d.Trades p) (found : ∀ q, d.Trades q → lost q = false)
    (granted : (d.acquireInstanceLock p answers).2 = true) (q : P) : ¬d.Trades q := by
  intro trades
  have guarded : d.locks.holder (d.process q).lockKey = some q :=
    (sound.held q trades (found q trades)).1
  rw [same.lockKey_eq q p] at guarded
  unfold acquireInstanceLock at granted
  split at granted
  · exact idle (SessionLocks.granted_owner guarded granted ▸ trades)
  · exact Bool.false_ne_true granted

/-- A process that is granted the lock while no other one is in a cycle enters its own. -/
theorem Sound.enter (sound : Sound d lost) (p : P) {x : ExecutorProcess} {lost' : P → Bool}
    (alone : ∀ q, q ≠ p → ¬d.Trades q) (granted : (d.acquireInstanceLock p answers).2 = true)
    (cycling : x.activity = .cycling) (keyed : x.lockKey = (d.process p).lockKey)
    (flagged : x.db.any OrbDb.instanceLockHeld = true) :
    Sound ((d.acquireInstanceLock p answers).1.setProcess p x) lost' := by
  have entered : ((d.acquireInstanceLock p answers).1.setProcess p x).Trades p := by
    rw [setProcess_trades, if_pos rfl]
    exact cycling
  have only (q : P) (trades : ((d.acquireInstanceLock p answers).1.setProcess p x).Trades q) :
      q = p := by
    by_contra other
    rw [setProcess_trades, if_neg other, Trades, acquireInstanceLock_process] at trades
    exact alone q other trades
  constructor
  · exact fun q r first second => (only q first).trans (only r second).symm
  · intro q trades _
    obtain rfl := only q trades
    rw [Guarded, setProcess_self, keyed]
    exact ⟨acquireInstanceLock_holder granted, flagged⟩
  · intro key q holds
    rcases acquireInstanceLock_owner holds with isP | before
    · exact isP ▸ entered
    · by_cases isP : q = p
      · exact isP ▸ entered
      · exact absurd (sound.owners key q before) (alone q isP)
  · intro q isOpen
    by_cases isP : q = p
    · exact isP ▸ entered
    · rw [setProcess_other isP, acquireInstanceLock_process] at isOpen
      exact absurd (sound.cycles q isOpen) (alone q isP)

/-- A session that ends leaves the locks of the others, and its own is lost. -/
theorem Sound.sessionEnds (sound : Sound d lost) (p : P) {lost' : P → Bool}
    (isLost : lost' p = true) (same : ∀ q, q ≠ p → lost' q = lost q) :
    Sound (d.endSession p) lost' := by
  constructor
  · exact sound.exclusive
  · intro q trades has
    have other : q ≠ p := by
      rintro rfl
      exact Bool.false_ne_true (has.symm.trans isLost)
    obtain ⟨guarded, flagged⟩ := sound.held q trades ((same q other).symm.trans has)
    exact ⟨SessionLocks.endSession_keeps guarded other, flagged⟩
  · intro key q holds
    exact sound.owners key q (SessionLocks.endSession_owner holds).2
  · exact sound.cycles

/-- The lock of a process in a cycle is free for it once its session has ended. -/
theorem Sound.free (sound : Sound d lost) {p : P} (trades : d.Trades p) (key : UInt64) :
    (d.endSession p).locks.Free key p := by
  cases held : (d.endSession p).locks.holder key with
  | none => exact Or.inl held
  | some q =>
    obtain ⟨other, before⟩ := SessionLocks.endSession_owner held
    exact absurd (sound.exclusive q p (sound.owners key q before) trades) other

/-- A cycle that begins takes the lock, or finds it taken and does not trade. -/
theorem Sound.begin (same : OneAccount account d) (sound : Sound d lost) (p : P)
    (reachable answers : Bool) (guards : Guards d lost (.beginCycle p reachable answers)) :
    Sound (d.beginCycle p reachable answers)
      (note lost d (.beginCycle p reachable answers) (d.beginCycle p reachable answers)) := by
  unfold beginCycle note
  by_cases idle : (d.process p).activity = .idle
  · have rests : ¬d.Trades p := by
      rw [Trades, idle]
      exact Activity.noConfusion
    obtain ⟨rfl, found⟩ := guards idle
    simp only [idle, ↓reduceIte]
    cases granted : (d.acquireInstanceLock p answers).2 with
    | true =>
      rw [if_pos rfl]
      exact sound.enter p (fun q _ => sound.alone same rests found granted q) granted rfl rfl rfl
    | false =>
      rw [if_neg Bool.false_ne_true, acquireInstanceLock_refused granted]
      exact sound.leave p (fun cycling => Activity.noConfusion cycling) rfl
        fun q other => Function.update_of_ne other ..
  · simp only [idle, ↓reduceIte]
    exact sound

/-- A reset of the connection: the lock that the process had is free for it, so an answered
question gets it back. -/
theorem Sound.reset (sound : Sound d lost) (p : P) (reachable answers : Bool) :
    Sound (d.reconnect p reachable answers)
      (note lost d (.reconnect p reachable answers) (d.reconnect p reachable answers)) := by
  unfold reconnect note
  cases isOpen : (d.process p).db with
  | none =>
    simp only [isOpen, Option.any_none, Bool.and_false, Bool.not_false]
    constructor
    · exact sound.exclusive
    · intro q trades has
      by_cases isP : q = p
      · rw [isP, Function.update_self] at has
        exact absurd has.symm Bool.false_ne_true
      · rw [Function.update_of_ne isP] at has
        exact sound.held q trades has
    · exact sound.owners
    · exact sound.cycles
  | some db =>
    have trades : d.Trades p := sound.cycles p (by rw [isOpen]; rfl)
    have ended := sound.sessionEnds p (Function.update_self p true lost)
      fun q other => Function.update_of_ne other ..
    have rest (value : Bool) (isLost : value = true) :
        Sound (d.endSession p) (Function.update lost p value) := isLost ▸ ended
    simp only [isOpen, Option.any_some]
    cases reachable with
    | false => exact rest _ rfl
    | true =>
      cases flag : db.instanceLockHeld with
      | false => exact rest _ (by rw [Bool.and_false, Bool.not_false])
      | true =>
        simp only [↓reduceIte, Bool.true_and, Bool.and_true]
        cases answers with
        | true =>
          have granted : ((d.endSession p).acquireInstanceLock p true).2 = true :=
            (acquireInstanceLock_acquired ..).mpr ⟨rfl, sound.free trades _⟩
          rw [granted]
          exact ended.enter p (fun q other taken => other (sound.exclusive q p taken trades))
            granted trades rfl rfl
        | false =>
          constructor
          · exact ended.exclusive.mono fun q after => by
              rw [setProcess_trades] at after
              split at after
              next isP => exact isP ▸ trades
              next => exact after
          · intro q after has
            by_cases isP : q = p
            · rw [isP, Function.update_self] at has
              exact absurd has.symm Bool.false_ne_true
            · rw [setProcess_trades, if_neg isP] at after
              have kept := ended.held q after (by rwa [Function.update_of_ne isP] at has ⊢)
              rw [Guarded, setProcess_other isP]
              exact kept
          · intro key q holds
            rw [setProcess_trades]
            split
            · exact trades
            · exact ended.owners key q holds
          · intro q isSome
            rw [setProcess_trades]
            split
            · exact trades
            next isP =>
              rw [setProcess_other isP] at isSome
              exact ended.cycles q isSome

/-- One guarded event keeps the record of who holds the lock sound. By the event. -/
theorem Sound.step (same : OneAccount account d) (sound : Sound d lost) (event : LockEvent P)
    (guards : Guards d lost event) :
    Sound (d.step event) (note lost d event (d.step event)) := by
  cases event with
  | beginCycle p reachable answers => exact sound.begin same p reachable answers guards
  | endCycle p =>
    change Sound (d.endCycle p) lost
    unfold endCycle
    dsimp only
    split
    · exact sound.leave p (fun cycling => Activity.noConfusion cycling) rfl fun _ _ => rfl
    · exact sound
  | exit p =>
    exact sound.leave p (fun cycling => Activity.noConfusion cycling) rfl fun _ _ => rfl
  | sessionEnds p =>
    exact sound.sessionEnds p (Function.update_self ..) fun q other =>
      Function.update_of_ne other ..
  | reconnect p reachable answers => exact sound.reset p reachable answers

/-! ## Runs -/

instance [Fintype P] (d : Deployment P) : Decidable (Exclusive d) :=
  inferInstanceAs (Decidable (∀ p q, d.Trades p → d.Trades q → p = q))

/-- Processes of one account, each with its own strategy tag, before their first cycles. -/
def initial (account : String) (strategy : P → String) : Deployment P where
  process p := { accountLabel := account, strategy := strategy p }

/-- Over every run of any number of processes of one account at most one is in a cycle that trades,
after every event, as long as no cycle begins without the database, nor while the lock of a
process in a cycle is lost: the server refuses the lock to every other one. -/
theorem one_executor_per_account (account : String) (strategy : P → String)
    (events : List (LockEvent P))
    (guards : Runs.Along (Runs.observe step note) (fun x event => Guards x.1 x.2 event)
      (initial account strategy, fun _ => false) events) :
    Runs.Along step (fun d event => Exclusive (d.step event)) (initial account strategy)
      events := by
  rw [← Runs.along_observe_iff step note _ (initial account strategy, fun _ => false)]
  refine Runs.along_of_invariant (Runs.observe step note)
    (fun x => OneAccount account x.1 ∧ Sound x.1 x.2) ?_ ?_ _ events ?_ guards
  · rintro x event ⟨same, sound⟩ allowed
    exact (sound.step same event allowed).exclusive
  · rintro x event ⟨same, sound⟩ allowed
    exact ⟨step_oneAccount same event, sound.step same event allowed⟩
  · have rests (p : P) : ¬(initial account strategy).Trades p := fun cycling =>
      Activity.noConfusion cycling
    exact ⟨fun _ => rfl, fun p _ trades => absurd trades (rests p),
      fun p trades => absurd trades (rests p), fun _ _ holds =>
        absurd holds (Option.some_ne_none _).symm,
      fun _ isOpen => absurd isOpen Bool.false_ne_true⟩

/-- An outage in the cycle of the first process, which gets its lock back by the reset; the second
one is refused. -/
def outage : List (LockEvent Bool) :=
  [.beginCycle true true true, .sessionEnds true, .reconnect true true true,
    .beginCycle false true true]

theorem one_executor_after_outage :
    Runs.Along step (fun d event => Exclusive (d.step event))
      (initial "legends" fun p : Bool => if p then "ORB" else "TREND") outage :=
  one_executor_per_account "legends" (fun p : Bool => if p then "ORB" else "TREND") outage
    ⟨fun _ => ⟨rfl, by decide +kernel⟩, trivial, trivial, fun _ =>
      ⟨rfl, by decide +kernel⟩, trivial⟩

/-- Two processes start while the database is out of reach, and both trade; or one has
its connection broken, another one is granted the lock, and the reset of the first only
finds it taken. -/
theorem two_executors_trade :
    ¬Runs.Along step (fun d event => Exclusive (d.step event))
        (initial "legends" (fun p : Bool => if p then "ORB" else "TREND"))
        [.beginCycle true false false, .beginCycle false false false] ∧
      ¬Runs.Along step (fun d event => Exclusive (d.step event))
        (initial "legends" (fun p : Bool => if p then "ORB" else "TREND"))
        [.beginCycle true true true, .sessionEnds true, .beginCycle false true true,
          .reconnect true true true] := by
  decide +kernel

end Deployment

end RithmicEngine
