import RigidScene.Decimal.Text
import RigidScene.Entity
import RigidScene.Program.Node

/-!
The values of programs.

Scalars, points and lists; the entities a program makes; and what can be called.  A function carries
the bindings that were visible where it was written and a serial number that tells it from every
other function.
-/

namespace RigidScene

/-- A function of a program. -/
structure Closure (V : Type) where
  /-- Tells functions apart that are written alike. -/
  serial : Nat
  params : List String
  body : Node
  /-- The bindings visible where the function was written. -/
  captured : NameMap V

/-- Functions that need no definition: those of `table`, and `halt`.  Functions that a host supplies
itself are left out, so a value that can be called is one of these or a closure. -/
inductive Builtin where
  | add
  | subtract
  | multiply
  | divide
  /-- Calls a function a number of times. -/
  | repeat
  /-- Calls a function for every cell of a grid. -/
  | grid
  /-- Requests that the run be interrupted; programs cannot name it. -/
  | halt
  deriving DecidableEq, Repr

namespace Builtin

/-- The name in programs and messages. -/
def name : Builtin → String
  | add => "+"
  | subtract => "-"
  | multiply => "*"
  | divide => "/"
  | «repeat» => "repeat"
  | grid => "grid"
  | halt => "halt"

/-- The number of arguments, unless any number will do. -/
def arity? : Builtin → Option Nat
  | «repeat» => some 2
  | grid => some 3
  | halt => some 0
  | _ => none

/-- The functions that every program can call, in order. -/
def table : List Builtin :=
  [add, subtract, multiply, divide, «repeat», grid]

/-- The function a program means by a name that has no label. -/
def ofName? (n : String) : Option Builtin :=
  table.find? (·.name = n)

end Builtin

/-- A value of a program. -/
inductive Value where
  | unit
  | bool (value : Bool)
  | number (value : Float)
  | string (text : String)
  | vector (point : Point)
  | list (items : List Value)
  | body (body : Body Value)
  | constraint (constraint : Constraint Value)
  | composite (composite : Composite Value)
  | closure (closure : Closure Value)
  | builtin (builtin : Builtin)
  deriving Inhabited

/-- The bindings of labels. -/
abbrev Labels := NameMap Value

/-- The kinds of values that messages speak of. -/
inductive Kind where
  | unit
  | bool
  | number
  | string
  | vector
  | list
  | body
  | constraint
  | composite
  | closure
  | builtin
  deriving DecidableEq, Repr

/-- The word for a kind of values. -/
def Kind.name : Kind → String
  | unit => "unit"
  | bool => "bool"
  | number => "number"
  | string => "string"
  | vector => "vector"
  | list => "list"
  | body => "body"
  | constraint => "constraint"
  | composite => "composite"
  | closure => "closure"
  | builtin => "builtin"

namespace Value

def kind : Value → Kind
  | unit => .unit
  | bool _ => .bool
  | number _ => .number
  | string _ => .string
  | vector _ => .vector
  | list _ => .list
  | body _ => .body
  | constraint _ => .constraint
  | composite _ => .composite
  | closure _ => .closure
  | builtin _ => .builtin

def isUnit : Value → Bool
  | unit => true
  | _ => false

/-- A body, a constraint or a composite. -/
def isEntity : Value → Bool
  | body _ | constraint _ | composite _ => true
  | _ => false

/-- Something that can be called. -/
def isCallable : Value → Bool
  | closure _ | builtin _ => true
  | _ => false

def number? : Value → Option Float
  | number x => some x
  | _ => none

def string? : Value → Option String
  | string s => some s
  | _ => none

def bool? : Value → Option Bool
  | bool b => some b
  | _ => none

def point? : Value → Option Point
  | vector p => some p
  | _ => none

def body? : Value → Option (Body Value)
  | body b => some b
  | _ => none

def constraint? : Value → Option (Constraint Value)
  | constraint c => some c
  | _ => none

def composite? : Value → Option (Composite Value)
  | composite c => some c
  | _ => none

/-- A body in messages: its shape, its label if it has one, and its number. -/
def renderBody {V : Type} (b : Body V) : String :=
  match b.label with
  | some label => s!"<{b.shape.name} {label} {EntityId.render b.id}>"
  | none => s!"<{b.shape.name} {EntityId.render b.id}>"

/-- A constraint in messages. -/
def renderConstraint {V : Type} (c : Constraint V) : String :=
  s!"<{c.source.render} {c.kind.name} {c.target.render}>"

/-- A composite in messages, with the number of bodies and constraints directly in it. -/
def renderComposite {V : Type} (c : Composite V) : String :=
  let name := c.label.getD "composite"
  s!"<{name} {EntityId.render c.id}: {c.bodies.length} bodies, {c.constraints.length} constraints>"

mutual

/-- The value as text. -/
def render : Value → String
  | unit => "()"
  | bool b => if b then "true" else "false"
  | number x => Decimal.plain x
  | string s => s
  | vector p => "[" ++ Decimal.plain p.x ++ ", " ++ Decimal.plain p.y ++ "]"
  | list items => "[" ++ ", ".intercalate (renderAll items) ++ "]"
  | body b => renderBody b
  | constraint c => renderConstraint c
  | composite c => renderComposite c
  | closure c => "<fn(" ++ ", ".intercalate c.params ++ ")>"
  | builtin b => "<builtin " ++ b.name ++ ">"

/-- The texts of the items of a list. -/
def renderAll : List Value → List String
  | [] => []
  | v :: vs => render v :: renderAll vs

end

end Value

/-- A number as a count: its whole part, at most `2 ^ 64 - 1`, and zero if it is negative or no
number. -/
def countOf (x : Float) : Nat :=
  x.toUInt64.toNat

/-- A parameter of a body, if it is a number. -/
def Body.param? (b : Body Value) (name : String) : Option Float :=
  (b.params.get? name).bind Value.number?

/-- A property of a body. -/
def Body.prop? (b : Body Value) (name : String) : Option Value :=
  b.props.get? name

end RigidScene
