import RigidScene.Proofs.Eval.Lockstep

/-!
Looser limits keep results.

The limit on nested calls and the policy on labels decide only whether a run is stopped; what a run
that they do not stop comes to is the same under every looser setting.  This is lockstep at equal
counts, where no number changes.
-/

namespace RigidScene

/-- The same run under looser settings. -/
def Lockstep.loosen {settings settings' : Settings} (looser : settings.Looser settings') :
    Lockstep where
  first := settings
  second := settings'
  looser := looser
  gap := 0
  number := id
  injective := Function.injective_id

namespace Lockstep

variable {settings settings' : Settings} (looser : settings.Looser settings')

theorem loosen_carries (lower upper : Nat) : (loosen looser).Carries lower upper :=
  fun _ _ _ => rfl

theorem loosen_along (answer : Environment × Value) :
    (loosen looser).along (Value.renumber (loosen looser).number) answer = answer :=
  Prod.ext (Environment.renumber_id answer.1) (Value.renumber_id answer.2)

end Lockstep

theorem EvalError.renumber_id (e : EvalError) : e.renumber id = e := by
  cases e with
  | functionNotFound name labels => rw [renumber, NameMap.renumber_id]
  | _ => rfl

/-- A run that succeeds does the same under looser settings: it ends in the same environment, with
the same value and at the same count.  So does a run that fails with any error but that of a limit
which has been loosened. -/
theorem loosening_keeps_results {settings settings' : Settings} (looser : settings.Looser settings')
    (node : Node) (env : Environment) (run run' : Run) :
    (∀ answer, node.eval settings env run = (.ok answer, run') →
      node.eval settings' env run = (.ok answer, run')) ∧
    ∀ e, node.eval settings env run = (.error e, run') → ¬ e.OfLimit settings settings' →
      node.eval settings' env run = (.error e, run') := by
  have follows := Lockstep.eval_follow (.loosen looser) node env
  rw [show env.renumber (Lockstep.loosen looser).number = env from env.renumber_id] at follows
  constructor
  · intro answer ran
    have same := (follows.ok run answer run' ran).2 (Lockstep.loosen_carries looser _ _)
    rwa [Lockstep.loosen_along] at same
  · intro e ran other
    have same := (follows.error run e run' ran).2 (Lockstep.loosen_carries looser _ _)
    have failed := same.resolve_left other
    rwa [show e.renumber (Lockstep.loosen looser).number = e from e.renumber_id] at failed

/-- A labelled circle made by a call inside of a call, with something behind it. -/
def circleInCalls (last : Node) : Node :=
  .composite [
    .label "f" (.function [] (.label "a" (.body "circle" [.number 0, .number 0, .number 5] []))),
    .label "g" (.function [] (.call "f" [])),
    .call "g" [],
    last]

/-- With two calls allowed the program succeeds, and fails if an unknown shape is behind it; it does
the same with three calls and equal labels allowed. -/
theorem circleInCalls_loosened :
    ∃ answer run' run'',
      (circleInCalls (.number 1)).eval { maxCallDepth := 2 } .empty {} = (.ok answer, run') ∧
      (circleInCalls (.number 1)).eval { maxCallDepth := 3, labelPolicy := .allow } .empty {} =
        (.ok answer, run') ∧
      (circleInCalls (.body "ring" [] [])).eval { maxCallDepth := 2 } .empty {} =
        (.error (.unknownShape "ring"), run'') ∧
      (circleInCalls (.body "ring" [] [])).eval { maxCallDepth := 3, labelPolicy := .allow }
        .empty {} = (.error (.unknownShape "ring"), run'') := by
  have looser : Settings.Looser { maxCallDepth := 2 } { maxCallDepth := 3, labelPolicy := .allow } :=
    ⟨by decide, .inr rfl⟩
  have succeeds :
      ((circleInCalls (.number 1)).eval { maxCallDepth := 2 } .empty {}).1.isOk = true := by
    decide +kernel
  have fails : ((circleInCalls (.body "ring" [] [])).eval { maxCallDepth := 2 } .empty {}).1 =
      .error (.unknownShape "ring") := by rfl
  cases ran : (circleInCalls (.number 1)).eval { maxCallDepth := 2 } .empty {} with
  | mk answer run' =>
    rw [ran] at succeeds
    cases answer with
    | error e => cases succeeds
    | ok answer =>
      have ran' := Prod.ext fails rfl
      exact ⟨answer, run', _, rfl, (loosening_keeps_results looser _ _ _ _).1 answer ran, ran',
        (loosening_keeps_results looser _ _ _ _).2 _ ran' id⟩

end RigidScene
