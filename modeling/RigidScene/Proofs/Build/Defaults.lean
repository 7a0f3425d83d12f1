import Mathlib.Data.Set.List
import RigidScene.Proofs.Build.Agreement
import RigidScene.Proofs.Eval.Provenance

/-!
The geometry of bodies that programs make.

Where a parameter of a body is missing or no number, its spec has a zero, and what is no point is
left out of an outline.  No body of a scene needs this: a shape takes its arguments only if they are
numbers for all its parameters and points behind them (`assign_ok_iff`), and nothing that happens to
a body later on touches its parameters.  `Shape.geometry?` reads the geometry off the arguments with
no defaults at all, and `geometry_without_defaults` is the result: what an engine is told of a body
of a scene is what its arguments say.
-/

namespace RigidScene

open Outcome

namespace Shape

theorem signature_nodup (shape : Shape) : shape.signature.Nodup := by
  cases shape <;> decide

section Assignment

variable {shape : Shape} {args : List Value} {params : NameMap Value}

theorem assignFixed_ok_iff {entries : List (String × Value)} :
    shape.assignFixed entries = .ok () ↔
      ∀ v ∈ entries.map Prod.snd, ∃ x, Value.number x = v := by
  induction entries with
  | nil => exact iff_of_true rfl (List.forall_mem_nil _)
  | cons e rest ih =>
    rw [List.map_cons, List.forall_mem_cons, ← ih]
    obtain ⟨name, v⟩ := e
    cases v with
    | number x => exact ⟨fun passed => ⟨⟨x, rfl⟩, passed⟩, And.right⟩
    | _ => exact iff_of_false nofun (by rintro ⟨⟨_, ⟨⟩⟩, _⟩)

theorem assignRest_ok_iff {name : String} {values : List Value} :
    shape.assignRest name values = .ok () ↔ ∀ v ∈ values, ∃ p, Value.vector p = v := by
  induction values with
  | nil => exact iff_of_true rfl (List.forall_mem_nil _)
  | cons v rest ih =>
    rw [List.forall_mem_cons, ← ih]
    cases v with
    | vector p => exact ⟨fun passed => ⟨⟨p, rfl⟩, passed⟩, And.right⟩
    | _ => exact iff_of_false nofun (by rintro ⟨⟨_, ⟨⟩⟩, _⟩)

theorem accepts_iff {count : Nat} : shape.accepts count = true ↔
    shape.parameters.length ≤ count ∧ (shape.rest? = none → count = shape.parameters.length) := by
  unfold accepts
  cases shape.rest? with
  | none => simpa using fun same : count = _ => same.ge
  | some name => simp

/-- The parameters of a body of the shape, with these values and further ones behind them. -/
def paramsOf (shape : Shape) (fixed rest : List Value) : NameMap Value :=
  ⟨shape.parameters.zip fixed ++ shape.rest?.toList.map fun name => (name, .list rest)⟩

/-- Of so many values as a shape has parameters all must be numbers, and of those behind them all
must be points. -/
theorem assign_append_iff {fixed rest : List Value}
    (count : fixed.length = shape.parameters.length) :
    shape.assign (fixed ++ rest) = .ok params ↔ (∀ v ∈ fixed, ∃ x, Value.number x = v) ∧
      (∀ v ∈ rest, ∃ p, Value.vector p = v) ∧ (shape.rest? = none → rest = []) ∧
        params = shape.paramsOf fixed rest := by
  have zipped : shape.parameters.zip (fixed ++ rest) = shape.parameters.zip fixed := by
    have both := @List.zip_append _ _ shape.parameters [] fixed rest count.symm
    rwa [List.append_nil, List.zip_nil_left, List.append_nil] at both
  have behind : (fixed ++ rest).drop shape.parameters.length = rest := by
    rw [← count, List.drop_left]
  have accepted : shape.accepts (fixed ++ rest).length = true ↔
      (shape.rest? = none → rest = []) := by
    rw [accepts_iff, List.length_append, count, Nat.add_eq_left, List.length_eq_zero_iff]
    exact and_iff_right (Nat.le_add_right _ _)
  have numbers : (∀ v ∈ fixed, ∃ x, Value.number x = v) ↔
      shape.assignFixed (shape.parameters.zip fixed) = .ok () := by
    have values : (shape.parameters.zip fixed).map Prod.snd = fixed := List.map_snd_zip count.le
    rw [assignFixed_ok_iff, values]
  rw [numbers, ← accepted, paramsOf, assign, zipped, behind]
  by_cases takes : shape.accepts (fixed ++ rest).length = true
  · rw [if_pos takes]
    simp only [takes, passed_bind_iff, true_and, pure, Except.pure]
    cases known : shape.rest? with
    | none =>
      obtain rfl := accepted.mp takes known
      simp [eq_comm (a := params)]
    | some name => simp [passed_bind_iff, assignRest_ok_iff, eq_comm (a := params)]
  · rw [if_neg takes]
    exact iff_of_false nofun fun all => takes all.2.2.1

/-- Values that are each made in the same way are the values made from a list. -/
theorem forall_made_iff {α : Type} {make : α → Value} {values : List Value} :
    (∀ v ∈ values, ∃ a, make a = v) ↔ ∃ as : List α, as.map make = values :=
  (Set.ext_iff.mp (Set.range_list_map make) values).symm

/-- A shape takes a number for each parameter and, if it has a rest parameter, points behind them.
-/
theorem assign_ok_iff : shape.assign args = .ok params ↔ ∃ (xs : List Float) (ps : List Point),
    args = xs.map .number ++ ps.map .vector ∧ xs.length = shape.parameters.length ∧
      (shape.rest? = none → ps = []) ∧
        params = shape.paramsOf (xs.map .number) (ps.map .vector) := by
  constructor
  · intro assigned
    have accepted : shape.accepts args.length = true := by
      by_contra refused
      rw [assign, if_neg refused] at assigned
      cases assigned
    have count := List.length_take_of_le (accepts_iff.mp accepted).1
    rw [← List.take_append_drop shape.parameters.length args] at assigned ⊢
    obtain ⟨numbers, points, spare, rfl⟩ := (assign_append_iff count).mp assigned
    obtain ⟨xs, front⟩ := forall_made_iff.mp numbers
    obtain ⟨ps, back⟩ := forall_made_iff.mp points
    rw [← back, List.map_eq_nil_iff] at spare
    rw [← front, List.length_map] at count
    exact ⟨xs, ps, by rw [front, back], count, spare, by rw [front, back]⟩
  · rintro ⟨xs, ps, rfl, count, spare, rfl⟩
    refine (assign_append_iff (by rw [List.length_map, count])).mpr ⟨?_, ?_, ?_, rfl⟩
    · exact forall_made_iff.mpr ⟨xs, rfl⟩
    · exact forall_made_iff.mpr ⟨ps, rfl⟩
    · rwa [List.map_eq_nil_iff]

theorem paramsOf_names {fixed : List Value} (count : fixed.length = shape.parameters.length)
    (rest : List Value) : (shape.paramsOf fixed rest).names = shape.signature := by
  rw [NameMap.names, paramsOf, List.map_append, List.map_fst_zip count.ge, List.map_map, signature]
  cases shape.rest? <;> rfl

end Assignment

/-- The position and the outline that the arguments of a shape describe, if they are what the shape
takes. -/
def geometry? : Shape → List Value → Option (Point × Outline)
  | .rectangle, [.number x, .number y, .number width, .number height] =>
    some (⟨x, y⟩, .rectangle width height)
  | .circle, [.number x, .number y, .number radius] => some (⟨x, y⟩, .circle radius)
  | .polygon, [.number x, .number y, .number sides, .number radius] =>
    some (⟨x, y⟩, .polygon (countOf sides) radius)
  | .trapezoid, [.number x, .number y, .number width, .number height, .number slope] =>
    some (⟨x, y⟩, .trapezoid width height slope)
  | .fromVertices, .number x :: .number y :: vertices =>
    (vertices.mapM Value.point?).map fun points => (⟨x, y⟩, .vertices points)
  | _, _ => none

end Shape

/-- The parameters of the body are those of its shape, in order; each has the argument at its place,
a number, and the rest parameter has all arguments behind these, which are points. -/
structure Body.Complete (b : Body Value) (args : List Value) : Prop where
  names : b.params.names = b.shape.signature
  fixed : ∀ (i : Nat) (name : String), b.shape.parameters[i]? = some name →
    ∃ x, args[i]? = some (Value.number x) ∧ b.params.get? name = some (.number x)
  rest : ∀ name, b.shape.rest? = some name → ∃ ps : List Point,
    args.drop b.shape.parameters.length = ps.map .vector ∧
      b.params.get? name = some (.list (ps.map .vector))

theorem mapM_points (ps : List Point) : (ps.map Value.vector).mapM Value.point? = some ps := by
  induction ps with
  | nil => rfl
  | cons p ps ih =>
    rw [List.map_cons, List.mapM_cons, ih]
    rfl

theorem filterMap_points (ps : List Point) : (ps.map Value.vector).filterMap Value.point? = ps := by
  rw [List.filterMap_map]
  exact List.filterMap_some

section Bodies

variable {b : Body Value} {args : List Value}

theorem Body.complete (assigned : b.shape.assign args = .ok b.params) : b.Complete args := by
  obtain ⟨xs, ps, rfl, count, spare, params⟩ := Shape.assign_ok_iff.mp assigned
  have long : (xs.map Value.number).length = b.shape.parameters.length := by
    rw [List.length_map, count]
  have names : b.params.names = b.shape.signature := by rw [params, Shape.paramsOf_names long]
  have bound {name : String} {v : Value} (member : (name, v) ∈ b.params.entries) :
      b.params.get? name = some v :=
    NameMap.get?_of_mem (names ▸ b.shape.signature_nodup) member
  refine ⟨names, fun i name place => ?_, fun name known => ⟨ps, ?_, ?_⟩⟩
  · have here : i < xs.length := by
      rw [count]
      exact (List.getElem?_eq_some_iff.mp place).1
    have argument : (xs.map Value.number)[i]? = some (.number xs[i]) := by
      rw [List.getElem?_map, List.getElem?_eq_getElem here]
      rfl
    refine ⟨xs[i], ?_, bound ?_⟩
    · rw [List.getElem?_append_left (by rwa [List.length_map]), argument]
    · have entry : (name, .number xs[i]) ∈ b.shape.parameters.zip (xs.map Value.number) :=
        List.mem_of_getElem? (List.getElem?_zip_eq_some.mpr ⟨place, argument⟩)
      rw [params]
      exact List.mem_append_left _ entry
  · rw [← long, List.drop_left]
  · apply bound
    rw [params, Shape.paramsOf, known]
    exact List.mem_append_right _ (List.mem_singleton.mpr rfl)

/-- What the spec says of the geometry of the body is what its arguments say. -/
theorem Body.geometry (assigned : b.shape.assign args = .ok b.params) (options : BuildOptions) :
    b.shape.geometry? args =
      some ((BodySpec.ofBody options b).position, (BodySpec.ofBody options b).outline) := by
  -- Properties change neither; so both are read off the parameters alone.
  have kept : ∀ spec key v, ((BodySpec.withProp spec key v).position, (spec.withProp key v).outline)
      = (spec.position, spec.outline) := by
    intro spec key v
    unfold BodySpec.withProp
    split <;> rfl
  rw [ofBody_kept (f := fun spec => (spec.position, spec.outline)) kept]
  obtain ⟨id, shape, params, props, label⟩ := b
  obtain ⟨xs, ps, rfl, count, spare, whole⟩ := Shape.assign_ok_iff.mp assigned
  dsimp only at count spare whole ⊢
  subst whole
  cases shape with
  | rectangle =>
    obtain rfl := spare rfl
    obtain ⟨x, y, width, height, rfl⟩ := List.length_eq_four.mp count
    rfl
  | circle =>
    obtain rfl := spare rfl
    obtain ⟨x, y, radius, rfl⟩ := List.length_eq_three.mp count
    rfl
  | polygon =>
    obtain rfl := spare rfl
    obtain ⟨x, y, sides, radius, rfl⟩ := List.length_eq_four.mp count
    rfl
  | trapezoid =>
    obtain rfl := spare rfl
    obtain ⟨x, rest, rfl⟩ := List.exists_cons_of_length_eq_add_one count
    obtain ⟨y, width, height, slope, rfl⟩ := List.length_eq_four.mp (Nat.succ.inj count)
    rfl
  | fromVertices =>
    obtain ⟨x, y, rfl⟩ := List.length_eq_two.mp count
    have points : (ps.map Value.vector).mapM Value.point? =
        some ((ps.map Value.vector).filterMap Value.point?) := by
      rw [mapM_points, filterMap_points]
    exact congrArg (Option.map fun points => (Point.mk x y, Outline.vertices points)) points

end Bodies

/-- Every body of a scene has been made by a body expression of its run, has all parameters of its
shape, and the geometry in its spec is what the arguments of the expression say, with no default in
it.  These are the specs that a world built from the scene has. -/
theorem geometry_without_defaults {settings : Settings} {program : Node} {run run' : Run}
    {scene : Scene} (evaluated : Scene.ofNode settings program run = (.ok scene, run')) :
    (∀ b ∈ scene.root.walk, ∃ args, b.MadeFrom settings program run args ∧ b.Complete args ∧
      ∀ options, b.shape.geometry? args =
        some ((BodySpec.ofBody options b).position, (BodySpec.ofBody options b).outline)) ∧
    ∀ options teardowns index w, World.engine.build options scene { teardowns } = (.ok index, w) →
      w.bodies.map (·.spec) = scene.root.walk.map (BodySpec.ofBody options) := by
  constructor
  · intro b member
    obtain ⟨args, made⟩ := scene_bodies_made evaluated b member
    exact ⟨args, made, Body.complete made.assigned, Body.geometry made.assigned⟩
  · intro options teardowns index w built
    rw [(build_bodies built).2, world_specs]

/-- A body of vertices and, in a block of its own, a polygon with a label. -/
def verticesAndPolygon : Node :=
  .composite [
    .body "fromVertices" [.number 1, .number 2, .vector (.number 0) (.number 0),
      .vector (.number 3) (.number 0), .vector (.number 0) (.number 4)] [],
    .scope (.label "p" (.body "polygon" [.number 5, .number 6, .number 7.5, .number 8]
      [("angle", .number 90)])) []]

/-- The vertices are those in the program, and of the number of sides the whole part counts. -/
theorem verticesAndPolygon_geometry : ∃ scene run',
    Scene.ofNode {} verticesAndPolygon {} = (.ok scene, run') ∧
    scene.root.walk.map (fun b => (BodySpec.ofBody {} b).outline) =
      [.vertices [⟨0, 0⟩, ⟨3, 0⟩, ⟨0, 4⟩], .polygon 7 8] ∧
    ∀ b ∈ scene.root.walk, ∃ args, b.MadeFrom {} verticesAndPolygon {} args ∧
      b.shape.geometry? args =
        some ((BodySpec.ofBody {} b).position, (BodySpec.ofBody {} b).outline) := by
  obtain ⟨scene, run', evaluated, outlines⟩ : ∃ scene run',
      Scene.ofNode {} verticesAndPolygon {} = (.ok scene, run') ∧
        scene.root.walk.map (fun b => (BodySpec.ofBody {} b).outline) =
          [.vertices [⟨0, 0⟩, ⟨3, 0⟩, ⟨0, 4⟩], .polygon (countOf 7.5) 8] := ⟨_, _, rfl, rfl⟩
  have sides : countOf 7.5 = 7 := by decide +kernel
  rw [sides] at outlines
  refine ⟨scene, run', evaluated, outlines, fun b member => ?_⟩
  obtain ⟨args, made, _, geometry⟩ := (geometry_without_defaults evaluated).1 b member
  exact ⟨args, made, geometry {}⟩

end RigidScene
