import RigidScene.Entity
import RigidScene.World.Spec

/-!
Engines: what a scene is built with.

An engine is a record of actions on a state.  An action that fails still answers the state it
reached.  Clearing an engine cannot fail.
-/

namespace RigidScene

/-- The calls that an engine can refuse. -/
inductive Method where
  | createBody
  | createGroup
  | addBody
  | addGroup
  | translateGroup
  | rotateGroup
  | scaleGroup
  | createConstraint
  | addConstraint
  deriving DecidableEq, Repr

namespace Method

/-- The name in messages and logs. -/
def name : Method → String
  | createBody => "create_body"
  | createGroup => "create_group"
  | addBody => "add_body"
  | addGroup => "add_group"
  | translateGroup => "translate_group"
  | rotateGroup => "rotate_group"
  | scaleGroup => "scale_group"
  | createConstraint => "create_constraint"
  | addConstraint => "add_constraint"

/-- All methods. -/
def all : List Method :=
  [createBody, createGroup, addBody, addGroup, translateGroup, rotateGroup, scaleGroup,
    createConstraint, addConstraint]

/-- The method with the given name. -/
def ofName? (n : String) : Option Method :=
  all.find? (·.name = n)

end Method

/-- Why an engine refuses a call. -/
inductive EngineError where
  | unknownBody (handle : BodyHandle)
  | unknownGroup (handle : GroupHandle)
  | unknownConstraint (handle : ConstraintHandle)
  /-- A group was to be put into itself. -/
  | ownMember (handle : GroupHandle)
  /-- The groups below a group contain one another in a ring, so its bodies have no list. -/
  | endless (handle : GroupHandle)
  /-- The call was made to fail. -/
  | refused (method : Method)
  deriving DecidableEq, Repr

/-- The error in words. -/
def EngineError.message : EngineError → String
  | unknownBody n => s!"unknown body {n}"
  | unknownGroup n => s!"unknown group {n}"
  | unknownConstraint n => s!"unknown constraint {n}"
  | ownMember n => s!"group {n} cannot contain itself"
  | endless n => s!"group {n} has no end"
  | refused method => s!"{method.name} refused"

/-- Why a world cannot be built. -/
inductive BuildError where
  /-- An end of a constraint is no body of the scene. -/
  | unresolvedEndpoint (constraint : EntityId) (endpoint : Endpoint)
  | engine (error : EngineError)
  deriving DecidableEq, Repr

/-- The error as one line of text. -/
def BuildError.message : BuildError → String
  | unresolvedEndpoint constraint endpoint =>
    s!"constraint {constraint} endpoint `{endpoint.render}` does not resolve to a body"
  | engine error => s!"engine error: {error.message}"

/-- An action on the state of an engine. -/
abbrev Act (σ α : Type) := ExceptT BuildError (StateM σ) α

/-- What can be done with a world whose state is `σ`. -/
structure Engine (σ : Type) where
  /-- The group that everything is in. -/
  root : GroupHandle
  createBody : BodySpec → Act σ BodyHandle
  createGroup : Option String → Act σ GroupHandle
  addBody : GroupHandle → BodyHandle → Act σ Unit
  addGroup : (parent child : GroupHandle) → Act σ Unit
  translateGroup : GroupHandle → (offset : Point) → Act σ Unit
  rotateGroup : GroupHandle → (radians : Float) → (about : Point) → Act σ Unit
  scaleGroup : GroupHandle → (factor : Float) → (about : Point) → Act σ Unit
  createConstraint : ConstraintSpec → Act σ ConstraintHandle
  addConstraint : GroupHandle → ConstraintHandle → Act σ Unit
  /-- Removes everything but an empty root. -/
  teardown : σ → σ

end RigidScene
