import RigidScene.LiveWorld
import RigidScene.Proofs.Build.Endings

/-!
The check of a scene predicts its build.

In an empty world a scene is built exactly if it passes the check.  With any engine that makes no
such report itself, the build of a scene that passes the check never ends with the report of an
unknown end; so a restart, which checks the scene before it removes the old world, fails after that
with errors of the engine only.
-/

namespace RigidScene

open Outcome

namespace World

theorem guarded_own (condition : World → Prop) [DecidablePred condition] (f : World → World)
    (fault : EngineError) :
    (do if condition (← get) then modify f else refuse fault : Act World Unit).Ends
      (fun _ => True) BuildError.Own := by
  apply (Act.Ends.of_total fun w => ⟨w, w, rfl⟩).bind
  intro w _
  by_cases holds : condition w
  · rw [if_pos holds]
    exact .of_total fun w => ⟨(), f w, rfl⟩
  · rw [if_neg holds]
    exact .throw ⟨fault, rfl⟩

theorem changeBody_own (handle : BodyHandle) (f : WorldBody → WorldBody) :
    (changeBody handle f).Ends (fun _ => True) BuildError.Own :=
  guarded_own (fun w => handle < w.bodies.length) _ _

theorem changeGroup_own (handle : GroupHandle) (f : WorldGroup → WorldGroup) :
    (changeGroup handle f).Ends (fun _ => True) BuildError.Own :=
  guarded_own (fun w => handle < w.groups.length) _ _

theorem changeConstraint_own (handle : ConstraintHandle) (f : WorldConstraint → WorldConstraint) :
    (changeConstraint handle f).Ends (fun _ => True) BuildError.Own :=
  guarded_own (fun w => handle < w.constraints.length) _ _

theorem changeBodiesUnder_own (g : GroupHandle) (f : WorldBody → WorldBody) :
    (changeBodiesUnder g f).Ends (fun _ => True) BuildError.Own := by
  have each (handles : List BodyHandle) :
      (changeBodies f handles).Ends (fun _ => True) BuildError.Own := by
    induction handles with
    | nil => exact .pure trivial
    | cons handle handles ih => exact (changeBody_own handle f).bind fun _ _ => ih
  apply (Act.Ends.of_total fun w => ⟨w, w, rfl⟩).bind
  intro w _
  cases w.bodiesUnder g with
  | error fault => exact .throw ⟨fault, rfl⟩
  | ok handles => exact each handles

theorem createConstraint_own (spec : ConstraintSpec) :
    (createConstraint spec).Ends (fun _ => True) BuildError.Own := by
  apply (Act.Ends.of_total fun w => ⟨w, w, rfl⟩).bind
  intro w _
  dsimp only
  split
  · exact .throw ⟨_, rfl⟩
  · split
    · exact .throw ⟨_, rfl⟩
    · exact .of_total fun w => ⟨_, _, rfl⟩

theorem addGroup_own (parent child : GroupHandle) :
    (addGroup parent child).Ends (fun _ => True) BuildError.Own := by
  unfold addGroup
  split
  · exact .throw ⟨_, rfl⟩
  · apply (changeGroup_own child _).bind
    intro _ _
    exact changeGroup_own parent _

/-- A world has no ends of constraints to report. -/
theorem engine_ownErrors : engine.OwnErrors where
  createBody _ := .of_total fun _ => ⟨_, _, rfl⟩
  createGroup _ := .of_total fun _ => ⟨_, _, rfl⟩
  addBody g b := (changeBody_own b _).bind fun _ _ => changeGroup_own g _
  addGroup := addGroup_own
  translateGroup g _ := changeBodiesUnder_own g _
  rotateGroup g _ _ := changeBodiesUnder_own g _
  scaleGroup g _ _ := changeBodiesUnder_own g _
  createConstraint := createConstraint_own
  addConstraint g c := (changeConstraint_own c _).bind fun _ _ => changeGroup_own g _

end World

/-- Neither has an engine that has none and is made to refuse calls. -/
theorem Engine.OwnErrors.scheduled {σ : Type} {e : Engine σ} (own : e.OwnErrors)
    (schedule : Schedule) : (e.scheduled schedule).OwnErrors := by
  have issued {α : Type} (call : Call) {act : Act σ α}
      (ends : act.Ends (fun _ => True) BuildError.Own) :
      (Journal.issue schedule call act).Ends (fun _ => True) BuildError.Own := by
    refine ⟨fun _ _ _ _ => trivial, ?_⟩
    intro j error j' h
    unfold Journal.issue at h
    cases refused : schedule (j.calls ++ [call]) with
    | some fault =>
      simp only [refused] at h
      cases h
      exact ⟨fault, rfl⟩
    | none =>
      simp only [refused] at h
      obtain ⟨answered, _⟩ := Prod.mk.inj h
      exact ends.fails j.state error _ (Prod.ext answered rfl)
  constructor
  · exact fun spec => issued _ (own.createBody spec)
  · exact fun label => issued _ (own.createGroup label)
  · exact fun g b => issued _ (own.addBody g b)
  · exact fun p c => issued _ (own.addGroup p c)
  · exact fun g offset => issued _ (own.translateGroup g offset)
  · exact fun g radians about => issued _ (own.rotateGroup g radians about)
  · exact fun g factor about => issued _ (own.scaleGroup g factor about)
  · exact fun spec => issued _ (own.createConstraint spec)
  · exact fun g c => issued _ (own.addConstraint g c)

section Check

variable {options : BuildOptions} {scene : Scene}

/-- A scene passes the check exactly if none of its constraints stops the second pass. -/
theorem check_ok_iff : scene.check options = .ok () ↔
    ∀ c ∈ scene.root.edges, Passes options scene.locate? c := by
  constructor
  · exact passes_of_check
  · intro passes
    unfold Scene.check
    cases policy : options.endpointPolicy with
    | lenient => rfl
    | strict =>
      have none : scene.unresolved? = none := by
        rw [unresolved?_none_iff]
        intro c member
        rcases passes c member with joins | lenient
        · exact joins
        · rw [policy] at lenient
          cases lenient
      rw [none]

/-- What is built in an empty world is the world of the scene. -/
theorem build_ok {index : BodyIndex} {w : World}
    (built : World.engine.build options scene .empty = (.ok index, w)) :
    scene.check options = .ok () ∧ index = scene.index ∧ w = scene.world options := by
  have passes := (build_ends World.engine_ownErrors scene).answers .empty index w built
  have made := build_run passes 0
  have same := built.symm.trans made
  obtain ⟨answer, rfl⟩ := Prod.mk.inj same
  exact ⟨check_ok_iff.mpr passes, Except.ok.inj answer, rfl⟩

/-- The build of a scene that passes the check fails with errors of the engine only. -/
theorem build_fails_own {σ : Type} {e : Engine σ} (own : e.OwnErrors)
    (checked : scene.check options = .ok ()) {s s' : σ} {error : BuildError}
    (failed : e.build options scene s = (.error error, s')) : error.Own := by
  rcases (build_ends own scene).fails s error s' failed with blamed | reports
  · exact blamed
  · obtain ⟨strict, c, member, e, side, unknown, _⟩ := reports
    rcases check_ok_iff.mp checked c member with joins | lenient
    · obtain ⟨first, second, source, target⟩ := joins_iff.mp joins
      rcases side with rfl | rfl
      · rw [source] at unknown
        cases unknown
      · rw [target] at unknown
        cases unknown
    · rw [strict] at lenient
      cases lenient

end Check

/-- The check predicts the build: in an empty world a scene is built exactly if it passes the check;
with any engine that does not report unresolved endpoints itself, the build of a scene that passes
the check fails with errors of the engine only; and so does a restart that has removed the world
before. -/
theorem check_predicts_build (options : BuildOptions) (scene : Scene) :
    (scene.check options = .ok () ↔
      ∃ index w, World.engine.build options scene .empty = (.ok index, w)) ∧
    ∀ {σ : Type} (e : Engine σ), e.OwnErrors →
      (scene.check options = .ok () → ∀ s error s',
        e.build options scene s = (.error error, s') → ∃ fault, error = .engine fault) ∧
      ∀ (world : LiveWorld σ) error s',
        world.restart e scene = .failed error s' → ∃ fault, error = .engine fault := by
  refine ⟨⟨?_, ?_⟩, ?_⟩
  · intro checked
    exact ⟨_, _, build_run (passes_of_check checked) 0⟩
  · rintro ⟨index, w, built⟩
    exact (build_ok built).1
  · intro σ e own
    refine ⟨?_, ?_⟩
    · intro checked s error s' failed
      exact build_fails_own own checked failed
    · intro world error s' failed
      unfold LiveWorld.restart LiveWorld.launch at failed
      cases checked : scene.check world.options with
      | error fault =>
        simp only [checked] at failed
        cases failed
      | ok done =>
        simp only [checked] at failed
        rcases built : e.build world.options scene (world.stop e) with ⟨fault | index, s⟩
        · simp only [built] at failed
          cases failed
          exact build_fails_own own checked built
        · simp only [built] at failed
          cases failed

/-- Two circles with an edge between them. -/
def linkedCircles : Scene where
  root :=
    { id := 0, label := none
      bodies := [⟨1, .circle, ∅, ∅, some "a"⟩, ⟨2, .circle, ∅, ∅, none⟩]
      constraints := [⟨3, .label "a", .rigid, .id 2, ∅⟩]
      composites := [], transform := .identity, props := ∅ }
  value := .unit

/-- The circles pass the check and are built, and an engine that refuses to make constraints fails
with that after the world before them has been removed. -/
theorem linkedCircles_predicted :
    let strict : BuildOptions := { endpointPolicy := .strict }
    let e := World.engine.scheduled (Fault.schedule (some ⟨.createConstraint, 1⟩))
    linkedCircles.check strict = .ok () ∧
      (∃ index w, World.engine.build strict linkedCircles .empty = (.ok index, w)) ∧
      ∃ error s', LiveWorld.restart e ⟨⟨.empty, []⟩, .empty, strict⟩ linkedCircles =
        .failed error s' ∧ ∃ fault, error = .engine fault := by
  intro strict e
  have checked : linkedCircles.check strict = .ok () := rfl
  obtain ⟨predicted, others⟩ := check_predicts_build strict linkedCircles
  obtain ⟨error, s', failed⟩ : ∃ error s',
      LiveWorld.restart e ⟨⟨.empty, []⟩, .empty, strict⟩ linkedCircles = .failed error s' :=
    ⟨_, _, rfl⟩
  have blamed := (others e (World.engine_ownErrors.scheduled _)).2 _ error s' failed
  exact ⟨checked, predicted.mp checked, error, s', failed, blamed⟩

end RigidScene
