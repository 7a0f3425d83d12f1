import RigidScene.Value

/-!
Why a run fails.

Each cause is one constructor and carries what its message needs; `EvalError.message` is the only
place where the wording stands.
-/

namespace RigidScene

/-- Where a value of the wrong kind was found. -/
inductive TypeSite where
  /-- A component of a point, by the name of its axis. -/
  | component (axis : String)
  /-- A parameter of a shape. -/
  | parameter (shape : Shape) (name : String)
  /-- An attribute of a block that places it. -/
  | placement (key : String)
  /-- An argument of a built-in function, counted from one. -/
  | argument (position : Nat) (function : Builtin)
  /-- The argument of a loop that says how often. -/
  | count (function : Builtin)
  /-- An entity to be added to an environment. -/
  | entity
  deriving DecidableEq, Repr

/-- The place in words. -/
def TypeSite.describe : TypeSite → String
  | component axis => s!"vector {axis} component"
  | parameter shape name => s!"{shape.name} parameter `{name}`"
  | placement key => s!"scope attribute `{key}`"
  | argument position function => s!"argument {position} of `{function.name}`"
  | count function => s!"count argument of `{function.name}`"
  | entity => "entity accumulation"

/-- What kind of value a place asks for. -/
inductive Wanted where
  | number
  | vector
  | entity
  deriving DecidableEq, Repr

/-- The kind in words. -/
def Wanted.describe : Wanted → String
  | number => "number"
  | vector => "vector"
  | entity => "body, constraint, or composite"

/-- Why a run fails. -/
inductive EvalError where
  | unknownShape (name : String)
  /-- A body with too few or too many positional arguments. -/
  | shapeArity (shape : Shape) (got : Nat)
  /-- A call of a name that means no function, with the labels that were visible. -/
  | functionNotFound (name : String) (labels : Labels)
  | notCallable (name : String) (found : Kind)
  | arityMismatch (name : String) (expected got : Nat)
  | typeMismatch (site : TypeSite) (expected : Wanted) (got : Kind)
  /-- An end of a constraint that is neither a body nor a name. -/
  | invalidEndpoint (got : Kind)
  | duplicateLabel (name : String)
  /-- A call that would be nested more deeply than is allowed. -/
  | stackOverflow (depth limit : Nat)
  | interrupted

namespace EvalError

/-- The number of positional arguments of a shape, in words. -/
def expectedArguments (shape : Shape) : String :=
  match shape.rest? with
  | some _ => s!"at least {shape.parameters.length}"
  | none => s!"{shape.parameters.length}"

/-- The names of the visible labels. -/
def labelNames (labels : Labels) : String :=
  if labels.names.isEmpty then "none" else ", ".intercalate labels.names

/-- The error as one line of text. -/
def message : EvalError → String
  | unknownShape name => s!"unknown shape `{name}`"
  | shapeArity shape got =>
    s!"shape `{shape.name}` takes {expectedArguments shape} positional parameters, got {got}"
  | functionNotFound name labels =>
    s!"function `{name}` not found (labels in scope: {labelNames labels})"
  | notCallable name found => s!"`{name}` is bound to a {found.name}, which is not callable"
  | arityMismatch name expected got => s!"`{name}` expects {expected} arguments, got {got}"
  | typeMismatch site expected got =>
    s!"type error in {site.describe}: expected {expected.describe}, got {got.name}"
  | invalidEndpoint got => s!"constraint endpoint must be a body or a label, got {got.name}"
  | duplicateLabel name => s!"duplicate label `{name}` in the same scope"
  | stackOverflow depth limit => s!"stack overflow: call depth {depth} exceeds maximum {limit}"
  | interrupted => "evaluation interrupted"

end EvalError

end RigidScene
