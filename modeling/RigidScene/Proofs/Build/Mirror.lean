import RigidScene.Proofs.Build.SecondPass

/-!
The world that is built mirrors the scene.

`build_run` gives the world of a scene whose constraints do not stop the second pass; `build_mirrors`
says what is in it when constraints with unknown ends are left out.
-/

namespace RigidScene

open Outcome Composite

/-- The index of a scene's bodies. -/
def Scene.index (s : Scene) : BodyIndex :=
  BodyIndex.empty.enterAll 0 s.root.walk

theorem index_resolve? (s : Scene) : s.index.resolve? = s.locate? :=
  funext (BodyIndex.resolve?_enterAll s.root.walk)

/-- The first pass leaves the world of the scene without its constraints. -/
theorem buildRoot_run (options : BuildOptions) (scene : Scene) (teardowns : Nat) :
    World.engine.buildGroup options scene.root 0 .empty { teardowns } =
      (.ok (scene.index, scene.root.groupTree 0), {
        bodies := scene.root.settled options 0
        groups := { scene.root with label := none }.groupsOf (fun _ => false) none 0 0 0
        teardowns }) := by
  refine ((buildGroup_run options).1 scene.root { teardowns } [] {} .empty rfl).trans ?_
  rw [groupsOf_bare]
  simp only [List.nil_append, List.length_nil, Nat.zero_add]
  rfl

/-- The second pass makes the constraints of the scene, unless one of them stops it.  With what
options the first pass was made does not matter to it. -/
theorem connectRoot_run {options options' : BuildOptions} {scene : Scene}
    (passes : ∀ c ∈ scene.root.edges, Passes options' scene.locate? c) (teardowns : Nat) :
    World.engine.connect options' scene.index scene.root (scene.root.groupTree 0) {
        bodies := scene.root.settled options 0
        groups := { scene.root with label := none }.groupsOf (fun _ => false) none 0 0 0
        teardowns } = (.ok (), { scene.world options with teardowns }) := by
  have unnamed : World.engine.connect options' scene.index scene.root (scene.root.groupTree 0) =
      World.engine.connect options' scene.index { scene.root with label := none }
        (groupTree { scene.root with label := none } 0) := by
    rw [connect_eq, connect_eq]
  have held (e : Endpoint) (handle : BodyHandle) (found : scene.locate? e = some handle) :
      handle < (scene.root.settled options 0).length :=
    ((settled_lengths options).1 scene.root 0).symm ▸ Endpoint.locate?_lt found
  have edges : edges { scene.root with label := none } = scene.root.edges := by
    rw [edges_eq, edges_eq]
  have linked := (connect_run options' scene.index).1
    { scene.root with label := none } {
      bodies := scene.root.settled options 0
      groups := { scene.root with label := none }.groupsOf (fun _ => false) none 0 0 0
      teardowns } [] none 0 [] (List.append_nil _).symm
  rw [index_resolve?, edges] at linked
  rw [unnamed]
  refine (linked passes held).trans ?_
  rw [inGroups_eq]
  simp only [List.append_nil, List.nil_append, List.length_nil, Scene.world, inGroups_eq]

/-- Building a scene in an empty world makes the world of the scene. -/
theorem build_run {options : BuildOptions} {scene : Scene}
    (passes : ∀ c ∈ scene.root.edges, Passes options scene.locate? c) (teardowns : Nat) :
    World.engine.build options scene { teardowns } =
      (.ok scene.index, { scene.world options with teardowns }) := by
  refine (bind_of_ok (buildRoot_run options scene teardowns)).trans ?_
  exact (bind_of_ok (connectRoot_run passes teardowns)).trans rfl

/-- The bodies of the world are those of the walk. -/
theorem world_specs (options : BuildOptions) (scene : Scene) :
    (scene.world options).bodies.map (·.spec) = scene.root.walk.map (BodySpec.ofBody options) := by
  have specs := congrArg (List.map Prod.snd) ((settled_specs options).1 scene.root 0)
  rw [List.map_map, List.map_map] at specs
  rw [← inGroups_bodies scene.root 0, List.map_map]
  exact specs

/-- The constraints of the world are those of the scene whose ends the index knows. -/
theorem world_constraints (options : BuildOptions) (scene : Scene) :
    (scene.world options).constraints = (scene.root.inGroups (·.constraints) 0).filterMap
      (fun held => held.2.joint? scene.index.resolve? held.1) := by
  rw [index_resolve?]
  rfl

/-- When constraints with unknown ends are left out, every scene is built. -/
theorem build_lenient {options : BuildOptions} (lenient : options.endpointPolicy = .lenient)
    (scene : Scene) :
    World.engine.build options scene .empty = (.ok scene.index, scene.world options) :=
  build_run (fun _ _ => .inr lenient) 0

/-- The world mirrors the scene when constraints with unknown ends are left out.  Bodies stand in
the order of the walk and in the groups of their composites; groups stand in the order of the
composites, each with what its composite holds directly; and a constraint stands between the bodies
that its ends mean, in the group of its composite, and is missing if an end means no body. -/
theorem build_mirrors {options : BuildOptions} (lenient : options.endpointPolicy = .lenient)
    (scene : Scene) : ∃ index w, World.engine.build options scene .empty = (.ok index, w) ∧
      w.bodies.map (·.spec) = scene.root.walk.map (BodySpec.ofBody options) ∧
      w.bodies.map (·.group) =
        (scene.root.inGroups (·.bodies) 0).map (fun held => some held.1) ∧
      w.groups.map (·.label) = none :: scene.root.nested.map (·.label) ∧
      w.groups =
        { scene.root with label := none }.groupsOf (Constraint.joins index.resolve?) none 0 0 0 ∧
      w.constraints = (scene.root.inGroups (·.constraints) 0).filterMap
        (fun held => held.2.joint? index.resolve? held.1) ∧
      w.constraints.map (fun made => (made.spec.first, made.spec.second)) =
        (scene.root.inGroups (·.constraints) 0).filterMap
          (fun held => held.2.ends? index.resolve?) ∧
      index.resolve? = scene.locate? := by
  have constraints := world_constraints options scene
  refine ⟨scene.index, scene.world options, build_lenient lenient scene, world_specs options scene,
    ?_, ?_, ?_, constraints, ?_, index_resolve? scene⟩
  · have owners := congrArg (List.map Prod.fst) ((settled_specs options).1 scene.root 0)
    rw [List.map_map, List.map_map] at owners
    exact owners
  · refine ((groupsOf_labels _).1 { scene.root with label := none } none 0 0 0).trans ?_
    rw [nested_eq, nested_eq]
  · rw [index_resolve?]
    rfl
  · rw [constraints]
    exact joints_ends scene.index.resolve? _

/-- Two circles, one of them in a block with two edges, the second of which leads nowhere. -/
def circleAndBlock : Scene where
  root :=
    { id := 0, label := none, bodies := [⟨1, .circle, ∅, ∅, some "a"⟩], constraints := []
      composites := [
        { id := 5, label := some "block", bodies := [⟨2, .circle, ∅, ∅, none⟩]
          constraints := [
            ⟨3, .label "a", .rigid, .id 2, ∅⟩,
            ⟨4, .id 2, .rope, .label "nowhere", ∅⟩]
          composites := [], transform := .identity, props := ∅ }]
      transform := .identity, props := ∅ }
  value := .unit

/-- The block has a group of its own, and of its edges the first one is made, from the circle of the
scene to the circle of the block. -/
theorem circleAndBlock_mirrored : ∃ index w,
    World.engine.build {} circleAndBlock .empty = (.ok index, w) ∧
      w.bodies.map (·.group) = [some 0, some 1] ∧
      w.groups.map (·.label) = [none, some "block"] ∧
      w.constraints.map (·.group) = [some 1] ∧
      w.constraints.map (fun made => (made.spec.first, made.spec.second)) = [(0, 1)] := by
  have lenient : ({} : BuildOptions).endpointPolicy = .lenient := rfl
  obtain ⟨index, w, built, _, owners, labels, _, constraints, ends, same⟩ :=
    build_mirrors lenient circleAndBlock
  refine ⟨index, w, built, owners, labels, ?_, ?_⟩
  · rw [constraints, same]
    decide +kernel
  · rw [ends, same]
    decide +kernel

end RigidScene
