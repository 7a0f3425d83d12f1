import RigidScene.Eval.Error

/-!
The environment of a step: the labels that are bound and the entities made so far in the block.

Steps take an environment and answer the next one.  A call runs with its parameters on top of the
caller's labels, and of what it leaves only the entities come back: `withEntitiesOf` keeps the
labels and the depth of the caller.
-/

namespace RigidScene

/-- Labels and the entities of the current block. -/
structure Environment where
  labels : Labels := ∅
  bodies : List (Body Value) := []
  constraints : List (Constraint Value) := []
  composites : List (Composite Value) := []
  /-- How many calls of functions are being carried out. -/
  depth : Nat := 0
  deriving Inhabited

namespace Environment

/-- Nothing is bound and nothing has been made. -/
def empty : Environment := {}

/-- The given labels are bound and nothing has been made. -/
def ofLabels (labels : Labels) : Environment :=
  { labels }

/-- The value of a label. -/
def get? (env : Environment) (name : String) : Option Value :=
  env.labels.get? name

/-- Binds a label, in place of what it was bound to. -/
def define (env : Environment) (name : String) (value : Value) : Environment :=
  { env with labels := env.labels.insert name value }

/-- Binds parameters to arguments, in order. -/
def bindParams (env : Environment) (callee : String) (params : List String) (args : List Value) :
    Except EvalError Environment :=
  if params.length = args.length then
    .ok { env with labels := env.labels.insertAll (params.zip args) }
  else .error (.arityMismatch callee params.length args.length)

/-- Binds the labels that are not bound yet. -/
def withFallback (env : Environment) (fallback : Labels) : Environment :=
  { env with labels := env.labels.withFallback fallback }

/-- One call deeper, if the limit allows it. -/
def enterCall (env : Environment) (limit : Nat) : Except EvalError Environment :=
  if env.depth < limit then .ok { env with depth := env.depth + 1 }
  else .error (.stackOverflow env.depth limit)

/-- The same labels and depth in a new block. -/
def cleared (env : Environment) : Environment :=
  { labels := env.labels, depth := env.depth }

/-- The labels and depth of `env` with the entities of `callee`. -/
def withEntitiesOf (env callee : Environment) : Environment :=
  { callee with labels := env.labels, depth := env.depth }

/-- How many entities the block holds directly. -/
def entityCount (env : Environment) : Nat :=
  env.bodies.length + env.constraints.length + env.composites.length

end Environment

end RigidScene
