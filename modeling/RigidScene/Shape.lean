/-!
The two vocabularies of a scene: the shapes of bodies and the kinds of edges.

A shape comes with the names of its positional parameters.  Every name of a vocabulary leads back
to its member, and no other name does.
-/

namespace RigidScene

/-- The shapes a body can have. -/
inductive Shape where
  | rectangle
  | circle
  | polygon
  | trapezoid
  | fromVertices
  deriving DecidableEq, Repr

namespace Shape

/-- The name used in programs. -/
def name : Shape → String
  | rectangle => "rectangle"
  | circle => "circle"
  | polygon => "polygon"
  | trapezoid => "trapezoid"
  | fromVertices => "fromVertices"

/-- All shapes. -/
def all : List Shape :=
  [rectangle, circle, polygon, trapezoid, fromVertices]

/-- The shape with the given name. -/
def ofName? (n : String) : Option Shape :=
  all.find? (·.name = n)

/-- The parameters that take one argument each, in order. -/
def parameters : Shape → List String
  | rectangle => ["x", "y", "width", "height"]
  | circle => ["x", "y", "radius"]
  | polygon => ["x", "y", "sides", "radius"]
  | trapezoid => ["x", "y", "width", "height", "slope"]
  | fromVertices => ["x", "y"]

/-- The parameter that takes all further arguments. -/
def rest? : Shape → Option String
  | fromVertices => some "vertices"
  | _ => none

/-- The names of all parameters, the one for further arguments last. -/
def signature (s : Shape) : List String :=
  s.parameters ++ s.rest?.toList

theorem ofName?_name (s : Shape) : ofName? s.name = some s := by
  cases s <;> rfl

theorem name_of_ofName? {n : String} {s : Shape} (h : ofName? n = some s) : s.name = n := by
  simpa using List.find?_some h

end Shape

/-- The kinds of edges between two bodies. -/
inductive EdgeKind where
  /-- A stiff link that keeps its length. -/
  | rigid
  /-- A soft link. -/
  | spring
  /-- A link of no length. -/
  | pin
  /-- A slack, damped link. -/
  | rope
  deriving DecidableEq, Repr

namespace EdgeKind

/-- The name used in trees and answers. -/
def name : EdgeKind → String
  | rigid => "rigid"
  | spring => "spring"
  | pin => "pin"
  | rope => "rope"

/-- All kinds of edges. -/
def all : List EdgeKind :=
  [rigid, spring, pin, rope]

/-- The kind with the given name. -/
def ofName? (n : String) : Option EdgeKind :=
  all.find? (·.name = n)

theorem ofName?_name (k : EdgeKind) : ofName? k.name = some k := by
  cases k <;> rfl

theorem name_of_ofName? {n : String} {k : EdgeKind} (h : ofName? n = some k) : k.name = n := by
  simpa using List.find?_some h

end EdgeKind

end RigidScene
