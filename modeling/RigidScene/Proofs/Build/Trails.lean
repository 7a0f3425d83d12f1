import RigidScene.Proofs.Build.Prediction

/-!
Which placements move a body.

`Composite.trails` lists the bodies of the walk with the composites on the way to each of them.  The
first pass moves the bodies of a group whenever it has built one, through the groups of the world;
`build_settles` says what that amounts to: every body is moved by the placements on its way, each of
them once, the innermost first, and by no other.
-/

namespace RigidScene

namespace Composite

section Trails

variable {V : Type}

mutual

/-- The bodies of a composite in the order of the walk, each with the composites inside it that lead
to the body, the outermost first. -/
def trails : Composite V → List (List (Composite V) × Body V)
  | ⟨_, _, bodies, _, composites, _, _⟩ => bodies.map ([], ·) ++ trailsAll composites

/-- The bodies of the composites of a list, each with the composites that lead to it. -/
def trailsAll : List (Composite V) → List (List (Composite V) × Body V)
  | [] => []
  | c :: cs => (trails c).map (fun t => (c :: t.1, t.2)) ++ trailsAll cs

end

/-- The composites lead from a composite to a body: each is directly in the one before it, and the
last one holds the body. -/
inductive LeadsTo : Composite V → List (Composite V) → Body V → Prop where
  | here {c b} (held : b ∈ c.bodies) : LeadsTo c [] b
  | inside {c d path b} (member : d ∈ c.composites) (rest : LeadsTo d path b) :
    LeadsTo c (d :: path) b

theorem trails_eq (c : Composite V) :
    c.trails = c.bodies.map ([], ·) ++ trailsAll c.composites := by
  cases c
  rw [trails]

/-- Every body of the walk has one trail. -/
theorem trails_bodies :
    (∀ c : Composite V, c.trails.map Prod.snd = c.walk) ∧
      ∀ cs : List (Composite V), (trailsAll cs).map Prod.snd = walkAll cs := by
  apply nesting_induction
  · intro c inside
    rw [trails_eq, walk_eq, List.map_append, inside, List.map_map]
    simp [Function.comp_def]
  · rfl
  · intro c cs first rest
    rw [trailsAll, walkAll, List.map_append, rest, List.map_map, ← first]
    rfl

/-- The trails of a composite are the ways that lead to its bodies. -/
theorem mem_trails_iff :
    (∀ (c : Composite V) path b, (path, b) ∈ c.trails ↔ c.LeadsTo path b) ∧
      ∀ (cs : List (Composite V)) path b,
        (path, b) ∈ trailsAll cs ↔ ∃ c ∈ cs, ∃ rest, path = c :: rest ∧ c.LeadsTo rest b := by
  apply nesting_induction
  · intro c inside path b
    rw [trails_eq, List.mem_append, inside]
    constructor
    · rintro (own | ⟨d, member, rest, rfl, leads⟩)
      · obtain ⟨_, held, same⟩ := List.mem_map.mp own
        cases same
        exact .here held
      · exact .inside member leads
    · intro leads
      cases leads with
      | here held => exact .inl (List.mem_map.mpr ⟨b, held, rfl⟩)
      | inside member rest => exact .inr ⟨_, member, _, rfl, rest⟩
  · intro path b
    simp [trailsAll]
  · intro c cs first rest path b
    rw [trailsAll, List.mem_append, rest]
    constructor
    · rintro (own | ⟨d, member, later⟩)
      · obtain ⟨t, held, same⟩ := List.mem_map.mp own
        cases same
        exact ⟨c, List.mem_cons_self, t.1, rfl, (first t.1 t.2).mp held⟩
      · exact ⟨d, List.mem_cons_of_mem c member, later⟩
    · rintro ⟨d, member, tail, rfl, leads⟩
      rcases List.mem_cons.mp member with rfl | other
      · exact .inl (List.mem_map.mpr ⟨(tail, b), (first tail b).mpr leads, rfl⟩)
      · exact .inr ⟨d, other, tail, rfl, leads⟩

/-- A body moved by the placements of composites, the last of them first. -/
def settleAlong (path : List (Composite V)) (b : WorldBody) : WorldBody :=
  path.foldr (fun c b => c.transform.settle b) b

theorem settleAlong_spec (path : List (Composite V)) (b : WorldBody) :
    (settleAlong path b).spec = b.spec := by
  induction path with
  | nil => rfl
  | cons c path ih => exact (settle_spec _ _).trans ih

end Trails

end Composite

/-- The body without its group. -/
def WorldBody.loose (b : WorldBody) : WorldBody :=
  { b with group := none }

theorem settle_loose (t : Transform) (b : WorldBody) :
    (t.settle b).loose = t.settle b.loose := by
  unfold Transform.settle
  split <;> rfl

open Composite

/-- The bodies of a composite in its group are moved along their trails. -/
theorem settled_trails (options : BuildOptions) :
    (∀ (c : Composite Value) g, (c.settled options g).map WorldBody.loose =
      c.trails.map fun t => settleAlong t.1 (.ofSpec (.ofBody options t.2))) ∧
    ∀ (cs : List (Composite Value)) g, (settledAll options cs g).map WorldBody.loose =
      (trailsAll cs).map fun t => settleAlong t.1 (.ofSpec (.ofBody options t.2)) := by
  apply nesting_induction
  · intro c inside g
    rw [settled_eq, trails_eq, List.map_append, List.map_append, inside, List.map_map,
      List.map_map]
    rfl
  · intro g
    rfl
  · intro c cs first rest g
    rw [settledAll, trailsAll, List.map_append, List.map_append, rest, List.map_map, List.map_map]
    congr 1
    have moved := congrArg (List.map c.transform.settle) (first g)
    rw [List.map_map, List.map_map] at moved
    simp only [Function.comp_def, ← settle_loose] at moved
    exact moved

/-- Each body of a world that has been built is moved by the placements of the composites that lead
to it, once by each, the innermost first, and by no other; and it keeps its spec.  The root is not
placed. -/
theorem build_settles {options : BuildOptions} {scene : Scene} {index : BodyIndex} {w : World}
    (built : World.engine.build options scene .empty = (.ok index, w)) :
    scene.root.trails.map Prod.snd = scene.root.walk ∧
      (∀ path b, (path, b) ∈ scene.root.trails ↔ scene.root.LeadsTo path b) ∧
      w.bodies.map WorldBody.loose =
        scene.root.trails.map (fun t => settleAlong t.1 (.ofSpec (.ofBody options t.2))) ∧
      w.bodies.map (·.spec) = scene.root.walk.map (BodySpec.ofBody options) := by
  obtain ⟨_, _, rfl⟩ := build_ok built
  have placed := (settled_trails options).1 scene.root 0
  refine ⟨trails_bodies.1 _, mem_trails_iff.1 _, placed, ?_⟩
  have specs := congrArg (List.map WorldBody.spec) placed
  rw [List.map_map, List.map_map] at specs
  simp only [Function.comp_def, settleAlong_spec] at specs
  rw [← trails_bodies.1, List.map_map]
  exact specs

/-- A circle in a block that is moved and scaled, inside a block that is turned. -/
def circleInTwoBlocks : Scene where
  root :=
    { id := 0, label := none, bodies := [], constraints := []
      composites := [
        { id := 3, label := none, bodies := [], constraints := []
          composites := [
            { id := 2, label := none, bodies := [⟨1, .circle, ∅, ∅, none⟩], constraints := []
              composites := [], transform := ⟨⟨10, 5⟩, 0, 2⟩, props := ∅ }]
          transform := ⟨⟨0, 0⟩, 90, 1⟩, props := ∅ }]
      transform := .identity, props := ∅ }
  value := .unit

/-- The inner block moves the circle first. -/
theorem circleInTwoBlocks_settled : ∃ index w,
    World.engine.build {} circleInTwoBlocks .empty = (.ok index, w) ∧
      w.bodies.map WorldBody.loose =
        [Transform.settle ⟨⟨0, 0⟩, 90, 1⟩ (Transform.settle ⟨⟨10, 5⟩, 0, 2⟩
          (.ofSpec (.ofBody {} ⟨1, .circle, ∅, ∅, none⟩)))] := by
  have passes : ∀ c ∈ circleInTwoBlocks.root.edges, Passes {} circleInTwoBlocks.locate? c := by
    intro c member
    cases member
  have built := build_run passes 0
  obtain ⟨_, _, placed, _⟩ := build_settles built
  exact ⟨_, _, built, placed⟩

end RigidScene
