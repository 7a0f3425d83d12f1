import RigidScene.Shape

/-!
Programs: what an evaluator runs.

Every construct of the scene language is one constructor.  Attributes are pairs of a key and an
expression in the order in which they are written, and a flag is an attribute whose expression is
`true`.
-/

namespace RigidScene

/-- An expression or statement of a program. -/
inductive Node where
  /-- Statements one after another. -/
  | composite (statements : List Node)
  /-- A body, by the name of its shape, positional arguments and attributes. -/
  | body (shape : String) (args : List Node) (attrs : List (String × Node))
  /-- An edge between two bodies. -/
  | constraint (source : Node) (kind : EdgeKind) (target : Node) (attrs : List (String × Node))
  /-- A block whose entities make up one composite. -/
  | scope (body : Node) (attrs : List (String × Node))
  /-- A name for the value of an expression. -/
  | label (name : String) (value : Node)
  /-- A function literal. -/
  | function (params : List String) (body : Node)
  /-- A call by name. -/
  | call (callee : String) (args : List Node)
  /-- A point. -/
  | vector (x y : Node)
  /-- A bare name. -/
  | symbol (name : String)
  | number (value : Float)
  | string (text : String)
  | bool (value : Bool)

end RigidScene
