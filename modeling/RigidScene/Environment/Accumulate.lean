import RigidScene.Environment
import RigidScene.Eval.Run

/-!
Adding entities to a block, naming them afterwards, and closing the block.

Under `LabelPolicy.reject` no two bodies or composites of a block carry one label: `labelTaken` is
checked against every entity of the block with another number, when an entity is added and when one
is named.
-/

namespace RigidScene

/-- Applies `f` to the last element that satisfies `p`; answers the changed element and the list. -/
def updateLast? {α : Type} (p : α → Bool) (f : α → α) : List α → Option (α × List α)
  | [] => none
  | a :: rest =>
    match updateLast? p f rest with
    | some (b, rest) => some (b, a :: rest)
    | none => if p a then some (f a, f a :: rest) else none

namespace Environment

/-- A body or composite with another number than `owner` carries the label. -/
def labelTaken (env : Environment) (name : String) (owner : EntityId) : Bool :=
  env.bodies.any (fun b => b.id ≠ owner && b.label = some name) ||
    env.composites.any fun c => c.id ≠ owner && c.label = some name

/-- Fails if `owner` may not carry the label. -/
def checkLabel (env : Environment) (policy : LabelPolicy) (owner : EntityId) (name : String) :
    Except EvalError Unit :=
  if policy = .reject ∧ env.labelTaken name owner then .error (.duplicateLabel name) else .ok ()

/-- Fails if `owner` may not carry the label that it has, if it has one. -/
def checkOwnLabel (env : Environment) (policy : LabelPolicy) (owner : EntityId)
    (label : Option String) : Except EvalError Unit :=
  match label with
  | some name => env.checkLabel policy owner name
  | none => .ok ()

/-- Adds a body to the block. -/
def addBody (env : Environment) (policy : LabelPolicy) (b : Body Value) :
    Except EvalError Environment := do
  env.checkOwnLabel policy b.id b.label
  return { env with bodies := env.bodies ++ [b] }

/-- Adds a constraint to the block. -/
def addConstraint (env : Environment) (c : Constraint Value) : Environment :=
  { env with constraints := env.constraints ++ [c] }

/-- Adds a composite to the block. -/
def addComposite (env : Environment) (policy : LabelPolicy) (c : Composite Value) :
    Except EvalError Environment := do
  env.checkOwnLabel policy c.id c.label
  return { env with composites := env.composites ++ [c] }

/-- Adds any entity to the block; a value that is none is refused. -/
def accumulate (env : Environment) (policy : LabelPolicy) : Value → Except EvalError Environment
  | .body b => env.addBody policy b
  | .constraint c => .ok (env.addConstraint c)
  | .composite c => env.addComposite policy c
  | v => .error (.typeMismatch .entity .entity v.kind)

/-- Names the body or composite of the block with the given number, the last one if there are
several, and answers it; `none` if there is no such entity. -/
def relabel (env : Environment) (policy : LabelPolicy) (id : EntityId) (name : String) :
    Except EvalError (Environment × Option Value) := do
  env.checkLabel policy id name
  match updateLast? (·.id = id) ({ · with label := some name }) env.bodies with
  | some (b, bodies) => return ({ env with bodies }, some (.body b))
  | none =>
    match updateLast? (·.id = id) ({ · with label := some name }) env.composites with
    | some (c, composites) => return ({ env with composites }, some (.composite c))
    | none => return (env, none)

/-- The entities of the block as a composite. -/
def toComposite (env : Environment) (id : EntityId) (transform : Transform)
    (props : NameMap Value) : Composite Value where
  id := id
  label := none
  bodies := env.bodies
  constraints := env.constraints
  composites := env.composites
  transform := transform
  props := props

end Environment

end RigidScene
