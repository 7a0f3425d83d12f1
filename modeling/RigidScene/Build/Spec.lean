import RigidScene.Value
import RigidScene.World.Spec

/-!
From the bodies and constraints of a scene to what an engine is told about them.

Parameters that are missing or no numbers count as zero, and points of an outline that are no points
are left out.  Properties and attributes replace the defaults in the order in which they stand; a
value of the wrong kind leaves the default.
-/

namespace RigidScene

/-- What happens to a constraint one of whose ends is no body. -/
inductive EndpointPolicy where
  /-- It is left out. -/
  | lenient
  /-- No world is built. -/
  | strict
  deriving DecidableEq, Repr

/-- How worlds are built. -/
structure BuildOptions where
  endpointPolicy : EndpointPolicy := .lenient
  /-- The bounciness of bodies that do not say otherwise. -/
  restitution : Float := 0.9
  /-- The friction of bodies that do not say otherwise. -/
  friction : Float := 0.1
  deriving Repr

/-- A colour: text as it is, anything else as it is written. -/
def Value.style : Value → String
  | .string s => s
  | v => v.render

/-- A value that switches something on. -/
def Value.truthy : Value → Bool
  | .bool b => b
  | .number x => x != 0
  | _ => false

namespace Outline

/-- The outline of a body. -/
def ofBody (b : Body Value) : Outline :=
  let p (name : String) : Float := (b.param? name).getD 0
  match b.shape with
  | .rectangle => .rectangle (p "width") (p "height")
  | .circle => .circle (p "radius")
  | .polygon => .polygon (countOf (p "sides")) (p "radius")
  | .trapezoid => .trapezoid (p "width") (p "height") (p "slope")
  | .fromVertices =>
    match b.params.get? "vertices" with
    | some (.list items) => .vertices (items.filterMap Value.point?)
    | _ => .vertices []

end Outline

namespace BodySpec

/-- The spec of a body without its properties. -/
def plain (options : BuildOptions) (b : Body Value) : BodySpec where
  outline := .ofBody b
  position := ⟨(b.param? "x").getD 0, (b.param? "y").getD 0⟩
  label := b.label
  restitution := options.restitution
  friction := options.friction
  fixed := false
  angle := 0
  fill := none
  extra := []

/-- The properties that have a place of their own in a spec. -/
def reserved : List String :=
  ["restitution", "friction", "angle", "color", "static", "isStatic"]

/-- The spec with one property taken over. -/
def withProp (spec : BodySpec) (key : String) (v : Value) : BodySpec :=
  match key with
  | "restitution" => { spec with restitution := v.number?.getD spec.restitution }
  | "friction" => { spec with friction := v.number?.getD spec.friction }
  | "angle" => { spec with angle := (v.number?.map radians).getD spec.angle }
  | "color" => { spec with fill := some v.style }
  | "static" => { spec with fixed := v.truthy }
  | "isStatic" => { spec with fixed := v.truthy }
  | _ => { spec with extra := spec.extra ++ (v.number?.map fun x => (key, x)).toList }

/-- The spec of a body. -/
def ofBody (options : BuildOptions) (b : Body Value) : BodySpec :=
  b.props.entries.foldl (fun spec e => spec.withProp e.1 e.2) (plain options b)

end BodySpec

namespace ConstraintSpec

/-- The spec of an edge of a kind without attributes. -/
def plain (kind : EdgeKind) (first second : BodyHandle) : ConstraintSpec :=
  let spec (stiffness damping : Float) (length : Option Float) : ConstraintSpec :=
    ⟨kind, first, second, .origin, .origin, length, stiffness, damping, none⟩
  match kind with
  | .rigid => spec 1 0 none
  | .spring => spec 0.01 0 none
  | .pin => spec 1 0 (some 0)
  | .rope => spec 0.3 0.7 none

/-- The spec with one attribute taken over; unknown ones are ignored. -/
def withAttr (spec : ConstraintSpec) (key : String) (v : Value) : ConstraintSpec :=
  match key with
  | "length" => { spec with length := v.number?.or spec.length }
  | "stiffness" => { spec with stiffness := v.number?.getD spec.stiffness }
  | "damping" => { spec with damping := v.number?.getD spec.damping }
  | "pointA" => { spec with firstPoint := v.point?.getD spec.firstPoint }
  | "pointB" => { spec with secondPoint := v.point?.getD spec.secondPoint }
  | "color" => { spec with stroke := some v.style }
  | _ => spec

/-- The spec of a constraint between two bodies. -/
def ofConstraint (c : Constraint Value) (first second : BodyHandle) : ConstraintSpec :=
  c.attrs.entries.foldl (fun spec e => spec.withAttr e.1 e.2) (plain c.kind first second)

end ConstraintSpec

end RigidScene
