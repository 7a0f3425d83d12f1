import RigidScene.Geometry
import RigidScene.Shape

/-!
What an engine is told about bodies and constraints.

A spec is complete: every default has been filled in.  Handles are the numbers by which an engine
knows what it has made; each kind of thing is numbered by itself.
-/

namespace RigidScene

abbrev BodyHandle := Nat
abbrev GroupHandle := Nat
abbrev ConstraintHandle := Nat

/-- The outline of a body around its centre. -/
inductive Outline where
  | rectangle (width height : Float)
  | circle (radius : Float)
  | polygon (sides : Nat) (radius : Float)
  | trapezoid (width height slope : Float)
  | vertices (points : List Point)
  deriving Repr

/-- What an engine needs to make a body. -/
structure BodySpec where
  outline : Outline
  /-- The centre. -/
  position : Point
  label : Option String
  restitution : Float
  friction : Float
  /-- The body does not move. -/
  fixed : Bool
  /-- In radians. -/
  angle : Float
  fill : Option String
  /-- Further numbers by their names. -/
  extra : List (String × Float)
  deriving Repr

/-- What an engine needs to make a constraint. -/
structure ConstraintSpec where
  kind : EdgeKind
  first : BodyHandle
  second : BodyHandle
  /-- Where the constraint is fastened to the first body, from its centre. -/
  firstPoint : Point
  secondPoint : Point
  /-- The length at rest; the engine takes the present distance if there is none. -/
  length : Option Float
  stiffness : Float
  damping : Float
  stroke : Option String
  deriving Repr

end RigidScene
