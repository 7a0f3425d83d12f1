import RigidScene.Geometry
import RigidScene.NameMap
import RigidScene.Shape

/-!
What a scene consists of: bodies, constraints between them, and composites that hold both and
further composites.

The types leave open what values parameters and properties have.  Every entity carries the number
it was made with; a label is optional.  `Composite.walk` lists all bodies below a composite, a
composite's own before those of the composites it holds, and the counts and searches below are
counts and searches on that list.
-/

namespace RigidScene

/-- The number of an entity; zero is the root of a scene. -/
abbrev EntityId := Nat

/-- A number in messages. -/
def EntityId.render (id : EntityId) : String :=
  s!"#{id}"

/-- One end of a constraint. -/
inductive Endpoint where
  /-- A body that was known when the constraint was made. -/
  | id (id : EntityId)
  /-- A name that is looked up when the world is built. -/
  | label (name : String)
  deriving DecidableEq, Repr

/-- The endpoint in messages. -/
def Endpoint.render : Endpoint → String
  | id n => EntityId.render n
  | label name => name

/-- A rigid body. -/
structure Body (V : Type) where
  id : EntityId
  shape : Shape
  /-- The arguments of the shape by the names of its parameters. -/
  params : NameMap V
  /-- Physical and visual properties. -/
  props : NameMap V
  label : Option String

/-- An edge between two bodies. -/
structure Constraint (V : Type) where
  id : EntityId
  source : Endpoint
  kind : EdgeKind
  target : Endpoint
  attrs : NameMap V

/-- Bodies, constraints and composites that are placed together. -/
structure Composite (V : Type) where
  id : EntityId
  label : Option String
  bodies : List (Body V)
  constraints : List (Constraint V)
  composites : List (Composite V)
  transform : Transform
  /-- Attributes that are no part of the placement. -/
  props : NameMap V

namespace Composite

variable {V : Type}

mutual

/-- All bodies of a composite, its own first. -/
def walk : Composite V → List (Body V)
  | ⟨_, _, bodies, _, composites, _, _⟩ => bodies ++ walkAll composites

/-- All bodies of a list of composites. -/
def walkAll : List (Composite V) → List (Body V)
  | [] => []
  | c :: cs => walk c ++ walkAll cs

end

mutual

/-- All constraints of a composite, its own first. -/
def edges : Composite V → List (Constraint V)
  | ⟨_, _, _, constraints, composites, _, _⟩ => constraints ++ edgesAll composites

/-- All constraints of a list of composites. -/
def edgesAll : List (Composite V) → List (Constraint V)
  | [] => []
  | c :: cs => edges c ++ edgesAll cs

end

/-- The number of bodies in a composite and below it. -/
def bodyCount (c : Composite V) : Nat :=
  c.walk.length

/-- The number of constraints in a composite and below it. -/
def constraintCount (c : Composite V) : Nat :=
  c.edges.length

/-- The first body with the given label. -/
def findBody (c : Composite V) (label : String) : Option (Body V) :=
  c.walk.find? (·.label = some label)

end Composite

end RigidScene
