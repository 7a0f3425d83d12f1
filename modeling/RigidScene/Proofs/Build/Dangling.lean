import RigidScene.Proofs.Build.Prediction
import RigidScene.Proofs.Eval.Grounding

/-!
The scenes of programs have no dangling numbers.

A program can make the number of a body an end of a constraint only with the body in hand, and
bodies that it has in hand are in its scene.  So in such a scene only a label can fail to mean a
body: that is all the check and the build ever report, and a constraint between two numbers is
always made.
-/

namespace RigidScene

open Composite

section Reports

variable {options : BuildOptions} {scene : Scene} {error : BuildError}

/-- The check fails with the report of an end that means no body. -/
theorem check_reports (failed : scene.check options = .error error) :
    error.Reports options scene.locate? scene.root.edges := by
  unfold Scene.check at failed
  cases policy : options.endpointPolicy with
  | lenient => simp [policy] at failed
  | strict =>
    cases fault : scene.unresolved? with
    | none => simp [policy, fault] at failed
    | some e =>
      simp only [policy, fault, Except.error.injEq] at failed
      subst failed
      obtain ⟨c, listed, found⟩ := List.exists_of_findSome?_eq_some fault
      obtain ⟨e, first, rfl⟩ := Option.map_eq_some_iff.mp found
      have unknown := List.find?_some first
      have side := List.mem_of_find?_eq_some first
      rw [knows_eq, Bool.not_eq_true', Option.isSome_eq_false_iff, Option.isNone_iff_eq_none]
        at unknown
      exact ⟨policy, c, ((mem_edgesLastFirst c).1 scene.root).mp listed, e, by simpa using side,
        unknown, rfl⟩

/-- The build in an empty world fails with such a report, or with an error of the world. -/
theorem build_reports {w : World}
    (failed : World.engine.build options scene .empty = (.error error, w)) :
    error.Own ∨ error.Reports options scene.locate? scene.root.edges :=
  (build_ends World.engine_ownErrors scene).fails .empty error w failed

end Reports

/-- The scene of a program that runs has no dangling numbers.  Each end of a constraint that is a
number is the number of a body in the scene.  So an end that the check or the build in an empty
world reports is a label that no body carries; and if constraints with unknown ends are left out,
every constraint between two numbers is still made. -/
theorem no_dangling_ids {settings : Settings} {program : Node} {run run' : Run} {scene : Scene}
    (evaluated : Scene.ofNode settings program run = (.ok scene, run')) :
    (∀ c ∈ scene.root.edges, ∀ n, c.source = .id n ∨ c.target = .id n →
      ∃ b ∈ scene.root.walk, b.id = n) ∧
    (∀ options k e, scene.check options = .error (.unresolvedEndpoint k e) ∨
        (∃ w, World.engine.build options scene .empty = (.error (.unresolvedEndpoint k e), w)) →
      ∃ name, e = .label name ∧ ∀ b ∈ scene.root.walk, b.label ≠ some name) ∧
    ∀ options : BuildOptions, options.endpointPolicy = .lenient →
      ∃ index w, World.engine.build options scene .empty = (.ok index, w) ∧
        w.constraints = (scene.root.inGroups (·.constraints) 0).filterMap
          (fun held => held.2.joint? index.resolve? held.1) ∧
        ∀ held ∈ scene.root.inGroups (·.constraints) 0, ∀ s t,
          held.2.source = .id s → held.2.target = .id t →
            ∃ made, held.2.joint? index.resolve? held.1 = some made := by
  have known {c : Constraint Value} (member : c ∈ scene.root.edges) {n : EntityId}
      (ends : c.EndsAt n) : (scene.locate? (.id n)).isSome = true := by
    obtain ⟨b, inside, own⟩ := ofNode_holds evaluated member ends
    rw [Scene.locate?, locate?_isSome, List.any_eq_true]
    exact ⟨b, inside, by simp [own]⟩
  refine ⟨fun c member n ends => ofNode_holds evaluated member ends, ?_, ?_⟩
  · intro options k e failed
    have reports : BuildError.Reports options scene.locate? scene.root.edges
        (.unresolvedEndpoint k e) := by
      rcases failed with checked | ⟨w, built⟩
      · exact check_reports checked
      · rcases build_reports built with ⟨fault, blamed⟩ | reports
        · cases blamed
        · exact reports
    obtain ⟨_, c, member, _, side, unknown, same⟩ := reports
    cases same
    cases e with
    | id n =>
      have found : (scene.locate? (.id n)).isSome = true :=
        known member (side.imp Eq.symm Eq.symm)
      rw [unknown] at found
      cases found
    | label name =>
      refine ⟨name, rfl, ?_⟩
      intro b inside carries
      have found := locate?_isSome scene.root.walk (.label name)
      have absent : (Endpoint.locate? scene.root.walk (.label name)).isSome = false :=
        Option.isSome_eq_false_iff.mpr (Option.isNone_iff_eq_none.mpr unknown)
      rw [found, List.any_eq_false] at absent
      exact absent b inside (by simp [carries])
  · intro options lenient
    have same := index_resolve? scene
    refine ⟨scene.index, scene.world options, build_lenient lenient scene,
      world_constraints options scene, ?_⟩
    intro held listed s t source target
    have member : held.2 ∈ scene.root.edges := by
      rw [← inGroups_constraints scene.root 0]
      exact List.mem_map_of_mem listed
    have first := known member (.inl source)
    have second := known member (.inr target)
    rw [← source, ← same, Option.isSome_iff_exists] at first
    rw [← target, ← same, Option.isSome_iff_exists] at second
    obtain ⟨a, first⟩ := first
    obtain ⟨b, second⟩ := second
    exact ⟨⟨.ofConstraint held.2 a b, some held.1⟩, by simp only [Constraint.joint?, first, second]⟩

/-- A function links a circle that it is given to one that it makes.  It is called in a block, and a
further edge leads to a name that no circle has. -/
def linkInBlock : Node :=
  let circle : Node := .body "circle" [.number 0, .number 0, .number 5] []
  .composite [
    .label "link" (.function ["end"] (.constraint (.symbol "end") .rigid circle [])),
    .scope (.composite [.label "a" circle, .call "link" [.symbol "a"]]) [],
    .constraint (.symbol "nowhere") .rope circle []]

/-- Of the ends of the two edges, the check reports the name. -/
theorem linkInBlock_ends : ∃ scene run' k name, Scene.ofNode {} linkInBlock {} = (.ok scene, run') ∧
    scene.root.edges.length = 2 ∧
    (∀ c ∈ scene.root.edges, ∀ n, c.source = .id n ∨ c.target = .id n →
      ∃ b ∈ scene.root.walk, b.id = n) ∧
    scene.check { endpointPolicy := .strict } = .error (.unresolvedEndpoint k (.label name)) ∧
    ∀ b ∈ scene.root.walk, b.label ≠ some name := by
  have runs : (Scene.ofNode {} linkInBlock {}).1.toOption.any (fun scene =>
      scene.root.edges.length = 2 && !(scene.check { endpointPolicy := .strict }).isOk) = true := by
    decide +kernel
  rcases ran : Scene.ofNode {} linkInBlock {} with ⟨e | scene, run'⟩
  · rw [ran] at runs
    cases runs
  · obtain ⟨ends, reported, _⟩ := no_dangling_ids ran
    rw [ran] at runs
    simp only [Except.toOption, Option.any_some, Bool.and_eq_true, decide_eq_true_eq,
      Bool.not_eq_true'] at runs
    obtain ⟨two, refused⟩ := runs
    cases checked : scene.check { endpointPolicy := .strict } with
    | ok =>
      rw [checked] at refused
      cases refused
    | error error =>
      obtain ⟨_, c, _, e, _, _, rfl⟩ := check_reports checked
      obtain ⟨name, rfl, absent⟩ := reported _ c.id e (.inl checked)
      exact ⟨scene, run', c.id, name, rfl, two, ends, checked, absent⟩

end RigidScene
