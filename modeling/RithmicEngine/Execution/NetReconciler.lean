import RithmicEngine.Execution.NotificationRouter
/-!
# Net-position reconciler

The timing of the question whether the exchange agrees with the order manager.
Every observation gives a verdict: agreement, a mismatch that is still waited
for, or a mismatch to act on. Zero stands for "consistent so far" and for "not
acted", as in the source, and a positive retry interval acts again on a mismatch
that outlives the action.
-/
namespace RithmicEngine

structure NetReconciler where
  mismatchSinceMs : Int := 0
  acted : Bool := false
  actedMs : Int := 0
  deriving DecidableEq, Repr

inductive Verdict
  | ok
  | mismatchWait
  | mismatchAct
  deriving DecidableEq, Repr

namespace NetReconciler

/-- The clock of the mismatch, started by its first observation. -/
def since (nowMs : Int) (recon : NetReconciler) : Int :=
  if recon.mismatchSinceMs = 0 then nowMs else recon.mismatchSinceMs

def observe (consistent : Bool) (nowMs graceMs retryMs : Int) (recon : NetReconciler) :
    NetReconciler × Verdict :=
  if consistent then ({}, .ok)
  else
    let recon := { recon with mismatchSinceMs := recon.since nowMs }
    if recon.acted then
      if retryMs > 0 ∧ nowMs - recon.actedMs ≥ retryMs then
        ({ recon with actedMs := nowMs }, .mismatchAct)
      else (recon, .mismatchWait)
    else if nowMs - recon.mismatchSinceMs < graceMs then (recon, .mismatchWait)
    else ({ recon with acted := true, actedMs := nowMs }, .mismatchAct)

/-- Only an agreement is answered with agreement. -/
theorem observe_ok (consistent : Bool) (nowMs graceMs retryMs : Int) (recon : NetReconciler) :
    (recon.observe consistent nowMs graceMs retryMs).2 = .ok ↔ consistent = true := by
  cases consistent with
  | true => simp [observe]
  | false =>
    simp only [observe, Bool.false_eq_true, ↓reduceIte, iff_false]
    split_ifs
    all_goals exact nofun

end NetReconciler

end RithmicEngine
