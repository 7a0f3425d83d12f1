import RigidScene.Eval.Evaluate
import RigidScene.Proofs.Outcome

/-!
When the steps that a run consists of succeed.
-/

namespace RigidScene

open Outcome

namespace Eval

variable {run run' : Run}

theorem checkInterrupt_ok_iff {u : Unit} :
    checkInterrupt run = (.ok u, run') ↔ run.interrupted = false ∧ run = run' := by
  have unfolded : outcome checkInterrupt run =
      outcome (if run.interrupted then throw .interrupted else pure ()) run := rfl
  rw [eq_ok_iff, unfolded, ← eq_ok_iff]
  cases run.interrupted
  · simp [pure_ok_iff]
  · simp [throw_ok_iff]

theorem checkInterrupt_of_ready (ready : run.interrupted = false) :
    checkInterrupt run = (.ok (), run) :=
  checkInterrupt_ok_iff.mpr ⟨ready, rfl⟩

theorem checkInterrupt_of_asked (asked : run.interrupted = true) :
    checkInterrupt run = (.error .interrupted, run) := by
  have unfolded : outcome checkInterrupt run =
      outcome (if run.interrupted then throw .interrupted else pure ()) run := rfl
  rw [asked] at unfolded
  exact unfolded

theorem mintId_ok_iff {id : EntityId} :
    mintId run = (.ok id, run') ↔
      .ofCount run.nextId = id ∧ { run with nextId := run.nextId + 1 } = run' := by
  have unfolded : outcome mintId run =
      (.ok (.ofCount run.nextId), { run with nextId := run.nextId + 1 }) := rfl
  simp [eq_ok_iff, unfolded]

theorem mintSerial_ok_iff {n : Nat} :
    mintSerial run = (.ok n, run') ↔
      run.nextSerial = n ∧ { run with nextSerial := run.nextSerial + 1 } = run' := by
  have unfolded : outcome mintSerial run =
      (.ok run.nextSerial, { run with nextSerial := run.nextSerial + 1 }) := rfl
  simp [eq_ok_iff, unfolded]

theorem interrupt_ok_iff {u : Unit} :
    interrupt run = (.ok u, run') ↔ { run with interrupted := true } = run' := by
  have unfolded : outcome interrupt run = (.ok (), { run with interrupted := true }) := rfl
  simp [eq_ok_iff, unfolded]

end Eval

end RigidScene
