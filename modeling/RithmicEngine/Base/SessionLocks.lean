import Mathlib.Logic.Function.Basic
/-!
# Locks held by sessions

A server grants each lock to at most one session. A session may ask again for a lock
it has, a lock that another one holds is refused at once, and a session that ends loses
every lock it held.
-/

universe u v

/-- The session that holds each lock. -/
structure SessionLocks (κ : Type u) (S : Type v) where
  holder : κ → Option S := fun _ => none

namespace SessionLocks

variable {κ : Type u} {S : Type v} [DecidableEq κ] [DecidableEq S]

/-- The session ends and loses its locks. -/
def endSession (session : S) (locks : SessionLocks κ S) : SessionLocks κ S where
  holder key := if locks.holder key = some session then none else locks.holder key

/-- The lock is free, or the session has it already. -/
def Free (key : κ) (session : S) (locks : SessionLocks κ S) : Prop :=
  locks.holder key = none ∨ locks.holder key = some session

instance (key : κ) (session : S) (locks : SessionLocks κ S) :
    Decidable (locks.Free key session) :=
  inferInstanceAs (Decidable (_ ∨ _))

/-- Ask for a lock without waiting. -/
def tryLock (key : κ) (session : S) (locks : SessionLocks κ S) : SessionLocks κ S × Bool :=
  if locks.Free key session then
    ({ holder := Function.update locks.holder key (some session) }, true)
  else (locks, false)

theorem tryLock_granted (key : κ) (session : S) (locks : SessionLocks κ S) :
    (locks.tryLock key session).2 = true ↔ locks.Free key session := by
  simp only [tryLock]
  split
  next free => exact iff_of_true rfl free
  next taken => exact iff_of_false Bool.false_ne_true taken

variable {key : κ} {session owner : S} {locks : SessionLocks κ S}

/-- A granted lock is the session's. -/
theorem tryLock_holder (granted : (locks.tryLock key session).2 = true) :
    (locks.tryLock key session).1.holder key = some session := by
  rw [tryLock, if_pos ((tryLock_granted key session locks).mp granted)]
  exact Function.update_self ..

/-- A lock that a session holds is granted to no other one. -/
theorem granted_owner (held : locks.holder key = some owner)
    (granted : (locks.tryLock key session).2 = true) : session = owner := by
  rcases (tryLock_granted key session locks).mp granted with free | own
  · exact absurd (held.symm.trans free) (Option.some_ne_none owner)
  · exact Option.some.inj (own.symm.trans held)

/-- Whoever asks, only the session that asked gains a lock. -/
theorem tryLock_owner {other : κ}
    (holds : (locks.tryLock key session).1.holder other = some owner) :
    owner = session ∨ locks.holder other = some owner := by
  unfold tryLock at holds
  split at holds
  · simp only [Function.update_apply] at holds
    split at holds
    · exact Or.inl (Option.some.inj holds).symm
    · exact Or.inr holds
  · exact Or.inr holds

omit [DecidableEq κ] in
/-- What is held where a session has ended was held by another one before. -/
theorem endSession_owner (holds : (locks.endSession session).holder key = some owner) :
    owner ≠ session ∧ locks.holder key = some owner := by
  simp only [endSession] at holds
  split at holds
  · exact absurd holds.symm (Option.some_ne_none owner)
  · next other => exact ⟨fun same => other (same ▸ holds), holds⟩

omit [DecidableEq κ] in
/-- The end of a session takes no lock from another one. -/
theorem endSession_keeps (held : locks.holder key = some owner) (other : owner ≠ session) :
    (locks.endSession session).holder key = some owner := by
  simp only [endSession]
  rw [if_neg fun own => other (Option.some.inj (held.symm.trans own)), held]

end SessionLocks
