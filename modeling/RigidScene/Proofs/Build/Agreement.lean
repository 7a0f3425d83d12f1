import Mathlib.Data.List.Nodup
import Mathlib.Order.Bounds.Basic
import RigidScene.Proofs.Build.Lookup
import RigidScene.Proofs.Build.Prediction
import RigidScene.Proofs.Eval.IdConservation
import RigidScene.Proofs.Eval.Opacity

/-!
Three ways to look up a body agree.

The scene searches its walk, the index is filled while the world is built, and the world searches
its bodies.  Bodies are built in the order of the walk; so all three find the first body with a
label, and the index finds the last body with a number.  A program gives no number twice, so the
index of its scene knows as many numbers as there are bodies.
-/

namespace RigidScene

open Outcome Composite

/-- The positions of a list at which elements with a property stand. -/
def positions {α : Type} (as : List α) (p : α → Prop) : Set Nat :=
  {i | ∃ a, as[i]? = some a ∧ p a}

section Positions

variable {α : Type} {p : α → Prop} {as : List α} {i : Nat}

/-- A search for the first position finds the least one. -/
theorem findIdx?_isLeast [DecidablePred p] (found : as.findIdx? (p ·) = some i) :
    IsLeast (positions as p) i := by
  obtain ⟨bound, holds, before⟩ := List.findIdx?_eq_some_iff_getElem.mp found
  refine ⟨⟨as[i], List.getElem?_eq_getElem bound, of_decide_eq_true holds⟩, ?_⟩
  rintro j ⟨a, place, holds'⟩
  by_contra earlier
  rw [Nat.not_le] at earlier
  obtain ⟨_, rfl⟩ := List.getElem?_eq_some_iff.mp place
  exact before j earlier (decide_eq_true holds')

/-- One more element that has the property stands behind all others. -/
theorem positions_concat {a : α} (holds : p a) :
    IsGreatest (positions (as ++ [a]) p) as.length := by
  refine ⟨⟨a, List.getElem?_concat_length, holds⟩, ?_⟩
  rintro j ⟨x, place, _⟩
  have bound := (List.getElem?_eq_some_iff.mp place).1
  rw [List.length_append, List.length_singleton] at bound
  exact Nat.le_of_lt_succ bound

/-- One more element that does not have the property adds no position. -/
theorem positions_concat_not {a : α} (fails : ¬ p a) :
    positions (as ++ [a]) p = positions as p := by
  ext j
  constructor
  · rintro ⟨x, place, holds⟩
    rcases Nat.lt_trichotomy j as.length with before | rfl | behind
    · exact ⟨x, (List.getElem?_append_left before).symm.trans place, holds⟩
    · rw [List.getElem?_concat_length] at place
      cases place
      exact (fails holds).elim
    · have past : (as ++ [a]).length ≤ j := by
        rw [List.length_append]
        exact behind
      rw [List.getElem?_eq_none past] at place
      cases place
  · rintro ⟨x, place, holds⟩
    have before := (List.getElem?_eq_some_iff.mp place).1
    exact ⟨x, (List.getElem?_append_left before).trans place, holds⟩

/-- A search from behind finds the greatest position. -/
theorem find?_reverse_isGreatest (as : List α) (p : α → Prop) [DecidablePred p] (i : Nat) :
    (as.zipIdx.reverse.find? fun e => p e.1).map Prod.snd = some i ↔
      IsGreatest (positions as p) i := by
  induction as using List.reverseRecOn with
  | nil => simp [IsGreatest, positions]
  | append_singleton as a ih =>
    have turned : (as ++ [a]).zipIdx.reverse = (a, as.length) :: as.zipIdx.reverse := by
      simp [List.zipIdx_append]
    rw [turned, List.find?_cons]
    by_cases holds : p a
    · have last : IsGreatest (positions (as ++ [a]) p) as.length := positions_concat holds
      simp only [holds, decide_true, Option.map_some, Option.some.injEq]
      exact ⟨fun same => same ▸ last, last.unique⟩
    · simp only [holds, decide_false]
      rw [positions_concat_not holds]
      exact ih

end Positions

section World

/-- Built in a world that is empty, however often it has been cleared, the index and the bodies are
those of the scene. -/
theorem build_bodies {options : BuildOptions} {scene : Scene} {index : BodyIndex} {w : World}
    {teardowns : Nat} (built : World.engine.build options scene { teardowns } = (.ok index, w)) :
    index = scene.index ∧ w.bodies = (scene.world options).bodies := by
  have passes := (build_ends World.engine_ownErrors scene).answers { teardowns } index w built
  cases built.symm.trans (build_run passes teardowns)
  exact ⟨rfl, rfl⟩

/-- What no property changes is in the spec of a body as if it had none. -/
theorem ofBody_kept {α : Type} {f : BodySpec → α}
    (kept : ∀ spec key v, f (spec.withProp key v) = f spec) (options : BuildOptions)
    (b : Body Value) : f (.ofBody options b) = f (.plain options b) := by
  have all (props : List (String × Value)) (spec : BodySpec) :
      f (props.foldl (fun spec e => spec.withProp e.1 e.2) spec) = f spec := by
    induction props generalizing spec with
    | nil => rfl
    | cons e props ih => rw [List.foldl_cons, ih, kept]
  exact all b.props.entries (.plain options b)

/-- A body keeps its label in the world. -/
theorem ofBody_label (options : BuildOptions) (b : Body Value) :
    (BodySpec.ofBody options b).label = b.label := by
  refine ofBody_kept (f := BodySpec.label) ?_ options b
  intro spec key v
  unfold BodySpec.withProp
  split <;> rfl

/-- The world finds a label where the walk has it first. -/
theorem bodyLabelled_eq {options : BuildOptions} {scene : Scene} {w : World}
    (bodies : w.bodies = (scene.world options).bodies) (label : String) :
    w.bodyLabelled label = scene.root.walk.findIdx? (·.label = some label) := by
  have specs := congrArg (List.findIdx? (fun spec => decide (spec.label = some label)))
    (world_specs options scene)
  rw [List.findIdx?_map, List.findIdx?_map, ← bodies] at specs
  simp only [Function.comp_def, ofBody_label] at specs
  exact specs

/-- The index finds a label where the walk has it first. -/
theorem ofLabel?_index (scene : Scene) (label : String) :
    scene.index.ofLabel? label = scene.root.walk.findIdx? (·.label = some label) := by
  rw [List.findIdx?_eq_fst_find?_zipIdx]
  exact congrFun (index_resolve? scene) (.label label)

/-- The index finds a number where the walk has it last. -/
theorem ofId?_index {scene : Scene} {n : EntityId} {h : BodyHandle} :
    scene.index.ofId? n = some h ↔ IsGreatest (positions scene.root.walk (·.id = n)) h := by
  have located : scene.index.ofId? n = scene.locate? (.id n) :=
    congrFun (index_resolve? scene) (.id n)
  rw [located]
  exact find?_reverse_isGreatest scene.root.walk (·.id = n) h

end World

section Numbers

/-- Bodies with new numbers, all different, add as many numbers as there are bodies. -/
theorem size_enterAll {V : Type} {index : BodyIndex} {first : Nat} {bodies : List (Body V)}
    (different : (bodies.map Body.id).Nodup)
    (new : ∀ b ∈ bodies, b.id ∉ index.ids.map Prod.fst) :
    (index.enterAll first bodies).size = index.size + bodies.length := by
  induction bodies generalizing index first with
  | nil => rfl
  | cons b bodies ih =>
    rw [List.map_cons, List.nodup_cons] at different
    have unknown : b.id ∉ index.ids.map Prod.fst := new b List.mem_cons_self
    have kept : index.ids.filter (·.1 ≠ b.id) = index.ids := by
      rw [List.filter_eq_self]
      intro entry member
      rw [decide_eq_true_eq]
      rintro same
      exact unknown (List.mem_map.mpr ⟨entry, member, same⟩)
    have entered : (index.insert b first).ids = (b.id, first) :: index.ids :=
      congrArg ((b.id, first) :: ·) kept
    have size : (index.insert b first).size = index.size + 1 := congrArg List.length entered
    rw [BodyIndex.enterAll, ih different.2, size, List.length_cons]
    · omega
    · intro b' member
      rw [entered, List.map_cons, List.mem_cons, not_or]
      refine ⟨fun same => different.1 ?_, new b' (List.mem_cons_of_mem b member)⟩
      exact List.mem_map.mpr ⟨b', member, same⟩

/-- The bodies of the walk are among what is in a composite. -/
theorem walk_ids_sublist :
    (∀ c : Composite Value, (c.walk.map Body.id).Sublist c.idsBelow) ∧
      ∀ cs : List (Composite Value), ((walkAll cs).map Body.id).Sublist (idsOfAll cs) := by
  apply nesting_induction
  · intro c inside
    rw [walk_eq, idsBelow_eq, List.map_append, List.append_assoc]
    exact (List.Sublist.refl _).append (inside.trans (List.sublist_append_right _ _))
  · exact List.Sublist.refl _
  · intro c cs first rest
    rw [walkAll, idsOfAll, List.map_append]
    exact first.append (rest.trans (List.sublist_cons_self _ _))

/-- The walk of a composite with other numbers. -/
theorem walk_renumber (f : EntityId → EntityId) :
    (∀ c : Composite Value, (c.renumber f).walk = c.walk.map (Body.renumber f)) ∧
      ∀ cs : List (Composite Value),
        walkAll (cs.map (Composite.renumber f)) = (walkAll cs).map (Body.renumber f) := by
  apply nesting_induction
  · rintro ⟨id, label, bodies, constraints, composites, transform, props⟩ inside
    simp only [Composite.renumber, walk, List.map_append, Body.renumberAll_eq,
      Composite.renumberAll_eq, inside]
  · rfl
  · intro c cs first rest
    simp only [List.map_cons, walkAll, List.map_append, first, rest]

/-- A run that counts from zero gives no number twice. -/
theorem ofNode_ids_nodup {settings : Settings} {program : Node} {run run' : Run} {scene : Scene}
    (evaluated : Scene.ofNode settings program run = (.ok scene, run'))
    (left : run'.nextId ≤ UInt64.size) : scene.root.idsBelow.Nodup := by
  obtain ⟨env, root, derived⟩ := derived_of_ofNode evaluated
  obtain ⟨_, kept⟩ := derived.carried (counts_carried settings) trivial
  have numbered : env.Numbered run.nextId run'.nextId :=
    kept left run.nextId (Nat.le_refl _) (.begin _ _ _)
  rw [root, idsBelow_eq]
  exact numbered.ids.nodup_iff.mpr List.nodup_range'

/-- A run that begins further on and succeeds makes the scene of the run that begins before, with
every number rotated. -/
theorem ofNode_rotated {settings : Settings} {program : Node} {run run' : Run} {gap : Nat}
    {scene : Scene}
    (evaluated : Scene.ofNode settings program (run.ahead gap) = (.ok scene, run')) :
    ∃ before mid, Scene.ofNode settings program run = (.ok before, mid) ∧
      scene = before.renumber (EntityId.rotate gap) ∧ run' = mid.ahead gap := by
  have follows := Lockstep.ofNode_follow
    (.later settings gap (EntityId.rotate gap) (EntityId.rotate_injective gap)) program
  have carries (lower upper : Nat) : (Lockstep.later settings gap (EntityId.rotate gap)
      (EntityId.rotate_injective gap)).Carries lower upper :=
    fun k _ _ => EntityId.rotate_ofCount gap k
  cases ran : Scene.ofNode settings program run with
  | mk answer mid =>
    cases answer with
    | error e =>
      have same := (follows.error run e mid ran).2 (carries _ _)
      have failed := same.resolve_left (e.not_ofLimit settings)
      cases evaluated.symm.trans failed
    | ok before =>
      have same := (follows.ok run before mid ran).2 (carries _ _)
      cases evaluated.symm.trans same
      exact ⟨before, mid, rfl, rfl, rfl⟩

/-- A run gives no two bodies of a scene the same number, if it makes no more entities than there
are numbers. -/
theorem ofNode_bodies_distinct {settings : Settings} {program : Node} {run run' : Run}
    {scene : Scene} (evaluated : Scene.ofNode settings program run = (.ok scene, run'))
    (left : run'.nextId ≤ run.nextId + UInt64.size) : (scene.root.walk.map Body.id).Nodup := by
  -- The run that counts from zero makes the same bodies under other numbers.
  have begun : run = ({ run with nextId := 0 } : Run).ahead run.nextId := by
    simp [Run.ahead]
  rw [begun] at evaluated
  obtain ⟨before, mid, ran, rfl, rfl⟩ := ofNode_rotated evaluated
  have counted : mid.nextId ≤ UInt64.size := by
    simp only [Run.ahead] at left
    omega
  have different := (ofNode_ids_nodup ran counted).sublist (walk_ids_sublist.1 before.root)
  have walk : (before.renumber (EntityId.rotate run.nextId)).root.walk =
      before.root.walk.map (Body.renumber (EntityId.rotate run.nextId)) := by
    rw [← (walk_renumber (EntityId.rotate run.nextId)).1, walk_eq, walk_eq]
    rfl
  have ids : (before.root.walk.map (Body.renumber (EntityId.rotate run.nextId))).map Body.id =
      (before.root.walk.map Body.id).map (EntityId.rotate run.nextId) := by
    rw [List.map_map, List.map_map]
    exact List.map_congr_left fun b _ => by cases b; rfl
  rw [walk, ids]
  exact List.Nodup.map (EntityId.rotate_injective run.nextId) different

end Numbers

/-- The three lookups agree.  The index knows a label exactly if the scene has a body with it; then
it leads to the first of them in the walk, which is the body that the scene finds, and to the body
of the world that the world finds.  A number leads to the last body in the walk that has it.  If a
program has made the scene, there are as many numbers as bodies. -/
theorem lookups_agree {options : BuildOptions} {scene : Scene} {index : BodyIndex} {w : World}
    {teardowns : Nat} (built : World.engine.build options scene { teardowns } = (.ok index, w)) :
    (∀ label, ((∃ h, index.ofLabel? label = some h) ↔ ∃ b, scene.root.findBody label = some b) ∧
      w.bodyLabelled label = index.ofLabel? label ∧
      ∀ h b, index.ofLabel? label = some h → scene.root.findBody label = some b →
        IsLeast (positions scene.root.walk (·.label = some label)) h ∧
        scene.root.walk[h]? = some b ∧
        ∃ made, w.bodies[h]? = some made ∧ made.spec = .ofBody options b ∧
          w.bodies.find? (·.spec.label = some label) = some made) ∧
    (∀ id_ h, index.ofId? id_ = some h ↔
      IsGreatest (positions scene.root.walk (·.id = id_)) h) ∧
    ∀ settings program run run', Scene.ofNode settings program run = (.ok scene, run') →
      run'.nextId ≤ run.nextId + UInt64.size → index.size = scene.bodyCount := by
  obtain ⟨rfl, bodies⟩ := build_bodies built
  refine ⟨fun label => ⟨?_, ?_, ?_⟩, fun _ _ => ofId?_index, ?_⟩
  · simp only [← Option.isSome_iff_exists, ofLabel?_index, Composite.findBody,
      List.findIdx?_isSome, List.find?_isSome, List.any_eq_true]
  · rw [bodyLabelled_eq bodies, ofLabel?_index]
  · intro h b known found
    rw [ofLabel?_index] at known
    rw [Composite.findBody, List.find?_eq_bind_findIdx?_getElem?, known] at found
    have place : scene.root.walk[h]? = some b := found
    have copied := congrArg (·[h]?) (world_specs options scene)
    simp only [List.getElem?_map, ← bodies, place] at copied
    obtain ⟨made, held, spec⟩ := Option.map_eq_some_iff.mp copied
    have same := bodyLabelled_eq bodies label
    rw [known, World.bodyLabelled] at same
    refine ⟨findIdx?_isLeast known, place, made, held, spec, ?_⟩
    rw [List.find?_eq_bind_findIdx?_getElem?, same]
    exact held
  · intro settings program run run' evaluated left
    have size : scene.index.size = BodyIndex.empty.size + scene.root.walk.length :=
      size_enterAll (ofNode_bodies_distinct evaluated left) fun _ _ => List.not_mem_nil
    exact size.trans (Nat.zero_add _)

/-- Two circles with one label, the second of them in a block with a third circle behind it. -/
def labelTwice : Node :=
  .composite [
    .label "a" (.body "circle" [.number 0, .number 0, .number 5] []),
    .scope (.composite [
      .label "a" (.body "circle" [.number 9, .number 0, .number 5] []),
      .body "circle" [.number 20, .number 0, .number 5] []]) []]

/-- In the world the label means the circle outside, and the index knows three numbers. -/
theorem labelTwice_agrees : ∃ scene run' index w,
    Scene.ofNode {} labelTwice {} = (.ok scene, run') ∧
      World.engine.build {} scene .empty = (.ok index, w) ∧
      index.ofLabel? "a" = some 0 ∧ w.bodyLabelled "a" = some 0 ∧ index.size = 3 := by
  have known : (Scene.ofNode {} labelTwice {}).1.toOption.map
      (fun scene => (scene.index.ofLabel? "a", scene.bodyCount)) = some (some 0, 3) := by
    decide +kernel
  have counts : (Scene.ofNode {} labelTwice {}).2.nextId = 5 := by decide +kernel
  cases ran : Scene.ofNode {} labelTwice {} with
  | mk answer run' =>
    rw [ran] at known counts
    cases answer with
    | error e => cases known
    | ok scene =>
      obtain ⟨label, bodies⟩ := Prod.mk.inj (Option.some.inj known)
      have built : World.engine.build {} scene .empty = (.ok scene.index, scene.world {}) :=
        build_run (fun c _ => .inr rfl) 0
      obtain ⟨labels, _, sizes⟩ := lookups_agree built
      have left : run'.nextId ≤ ({} : Run).nextId + UInt64.size := by
        rw [counts]
        decide
      refine ⟨scene, run', _, _, rfl, built, label, ?_, ?_⟩
      · exact (labels "a").2.1.trans label
      · exact (sizes {} labelTwice {} run' ran left).trans bodies

end RigidScene
