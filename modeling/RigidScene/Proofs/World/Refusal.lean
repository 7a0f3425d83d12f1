import RigidScene.Proofs.World.Links
import RigidScene.Proofs.World.Traversal

/-!
What is left of a call that is refused.

Whatever puts something into a group looks for the group last, when the owner is already written
down.  So a refused call changes the world exactly if it names a thing that is there and a group
that is not (`World.Strands`); then the thing has an owner that does not exist, and nothing else is
changed.  All other calls look before they write: `refused_call_unchanged_iff`.
-/

namespace RigidScene.World

open Outcome

variable {w w' : World} {call : Call} {e : BuildError}

/-- The call writes down an owner that is not there, and that was not written down before. -/
def Strands (w : World) (call : Call) : Prop :=
  ∃ kind g n, call.puts? = some (kind, g, n) ∧ w.groups.length ≤ g ∧
    ∃ owner, (w.owners kind)[n]? = some owner ∧ owner ≠ some g

theorem strands_iff {kind : Member} {g : GroupHandle} {n : Nat}
    (puts : call.puts? = some (kind, g, n)) : w.Strands call ↔ w.groups.length ≤ g ∧
      ∃ owner, (w.owners kind)[n]? = some owner ∧ owner ≠ some g := by
  simp [Strands, puts]

theorem not_strands (puts : call.puts? = none) : ¬ w.Strands call := by
  simp [Strands, puts]

/-- The world with the owner written down that the call names. -/
def stranded (w : World) (call : Call) : World :=
  match call.puts? with
  | some (kind, g, n) => w.assign g n kind
  | none => w

/-! ## Calls that look before they write -/

theorem changeBodiesUnder_refused (linked : w.Linked) {g : GroupHandle} {f : WorldBody → WorldBody}
    (refused : changeBodiesUnder g f w = (.error e, w')) : w' = w := by
  rw [show changeBodiesUnder g f w = _ from bind_of_ok rfl] at refused
  cases listed : w.bodiesUnder g with
  | error e' =>
    rw [listed] at refused
    cases refused
    rfl
  | ok handles =>
    obtain ⟨moved, changed⟩ := changeBodies_ok f ((bodiesWithin_lists listed).known linked)
    rw [listed] at refused
    cases changed.symm.trans refused

/-- A call that puts nothing into a group changes nothing where it is refused. -/
theorem refused_other (linked : w.Linked) (other : call.puts? = none)
    (refused : engine.perform call w = (.error e, w')) : w' = w := by
  cases call with
  | createBody | createGroup | teardown => cases refused
  | addBody | addGroup | addConstraint => cases other
  | createConstraint spec =>
    have refused := map_error refused
    by_cases known : spec.first < w.bodies.length ∧ spec.second < w.bodies.length
    · cases (createConstraint_run known.1 known.2).symm.trans refused
    · obtain ⟨_, unchanged⟩ := createConstraint_refused known
      cases unchanged.symm.trans refused
      rfl
  | translateGroup | rotateGroup | scaleGroup =>
    exact changeBodiesUnder_refused linked (map_error refused)

/-! ## Calls that write first -/

/-- Writing an owner down changes nothing exactly if it is written there already. -/
theorem assign_eq_iff {kind : Member} {g : GroupHandle} {n : Nat} {owner : Option GroupHandle}
    (held : (w.owners kind)[n]? = some owner) : w.assign g n kind = w ↔ owner = some g := by
  constructor
  · intro same
    have written : (w.assign g n kind).owners kind = _ := owners_assign.trans (if_pos rfl)
    rw [same] at written
    have there := congrArg (·[n]?) written
    simpa [List.getElem?_modify, held] using there
  · rintro rfl
    cases kind with
    | body =>
      refine congrArg (fun bodies => { w with bodies }) (modify_eq_self fun b there => ?_)
      rw [owners, List.getElem?_map, there] at held
      rw [← Option.some.inj held]
    | group =>
      refine congrArg (fun groups => { w with groups }) (modify_eq_self fun group there => ?_)
      rw [owners, List.getElem?_map, there] at held
      rw [← Option.some.inj held]
    | constraint =>
      refine congrArg (fun constraints => { w with constraints }) (modify_eq_self fun c there => ?_)
      rw [owners, List.getElem?_map, there] at held
      rw [← Option.some.inj held]

theorem refused_unchanged_iff (linked : w.Linked)
    (refused : engine.perform call w = (.error e, w')) :
    (w' = w ↔ ¬ w.Strands call) ∧ (w.Strands call → w' = w.stranded call) := by
  cases puts : call.puts? with
  | none =>
    refine ⟨iff_of_true (refused_other linked puts refused) (not_strands puts), ?_⟩
    exact fun strands => absurd strands (not_strands puts)
  | some entry =>
    obtain ⟨kind, g, n⟩ := entry
    have stranded : w.stranded call = w.assign g n kind := by rw [stranded, puts]
    rw [strands_iff puts, stranded]
    obtain ⟨_, done⟩ | ⟨known, unknown, _, failed⟩ | ⟨stray, _, failed⟩ := perform_puts puts w
    · cases done.symm.trans refused
    · cases failed.symm.trans refused
      have held := List.getElem?_eq_getElem known
      rw [assign_eq_iff held]
      simp [unknown, held]
    · cases failed.symm.trans refused
      have quiet : ¬ (w.groups.length ≤ g ∧
          ∃ owner, (w.owners kind)[n]? = some owner ∧ owner ≠ some g) := by
        rintro ⟨unknown, owner, held, _⟩
        have known := (List.getElem?_eq_some_iff.mp held).1
        refine stray ⟨known, ?_⟩
        rintro rfl rfl
        rw [count_owners] at known
        exact Nat.not_le.mpr known unknown
      exact ⟨iff_of_true rfl quiet, fun strands => absurd strands quiet⟩

/-- Whatever has been called before, a call that is refused leaves the world as it was, but for one
case: a thing that is there, and was in no such group, is to be put into a group that is not there.
Then that group is written down as its owner, and nothing else is changed. -/
theorem refused_call_unchanged_iff {calls : List Call}
    (refused : engine.perform call (empty.after calls) = (.error e, w')) :
    (w' = empty.after calls ↔ ¬ (empty.after calls).Strands call) ∧
    ((empty.after calls).Strands call → w' = (empty.after calls).stranded call) :=
  refused_unchanged_iff (after_linked calls) refused

/-- A group that is to be put into one that is not there has that one for its parent. -/
theorem groupIntoNone_stranded : ∃ e w', engine.perform (.addGroup 9 1)
      (empty.after [.createGroup none]) = (.error e, w') ∧
    w' ≠ empty.after [.createGroup none] ∧ w'.groups = [{}, { parent := some 9 }] := by
  have refused : engine.perform (.addGroup 9 1) (empty.after [.createGroup none]) =
      (.error (.engine (.unknownGroup 9)), ⟨[], [{}, { parent := some 9 }], [], 0⟩) := rfl
  have strands : (empty.after [.createGroup none]).Strands (.addGroup 9 1) :=
    ⟨.group, 9, 1, rfl, by decide, none, rfl, nofun⟩
  have unchanged := (refused_call_unchanged_iff refused).1
  exact ⟨_, _, refused, fun same => unchanged.mp same strands, rfl⟩

/-- A world with one body in it. -/
def oneBody : World :=
  empty.after [.createBody ⟨.circle 1, .origin, none, 0.9, 0.1, false, 0, none, []⟩]

/-- A body that is to be put into a group that is not there has that one for its group. -/
theorem bodyIntoNone_changes : ∃ e w', engine.perform (.addBody 9 0) oneBody = (.error e, w') ∧
    w'.bodies ≠ oneBody.bodies ∧ w'.bodies.map (·.group) = [some 9] := by
  refine ⟨_, _, rfl, fun same => ?_, rfl⟩
  have groups : [some 9] = oneBody.bodies.map (·.group) := congrArg (List.map WorldBody.group) same
  cases groups

end RigidScene.World
