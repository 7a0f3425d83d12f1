import RigidScene.Value

/-!
Equality of values.

Numbers are compared as numbers, so a value that holds one that is no number differs from itself.
Maps are equal when they bind the same names to equal values, in any order.  Functions are equal
when they are the same function, which their serial numbers tell, and built-ins when they have the
same name.
-/

namespace RigidScene.Value

mutual

/-- Equality of values. -/
def equal : Value → Value → Bool
  | unit, unit => true
  | bool a, bool b => a = b
  | number a, number b => a == b
  | string a, string b => a = b
  | vector p, vector q => p.same q
  | list as, list bs => equalAll as bs
  | body a, body b => equalBody a b
  | constraint a, constraint b => equalConstraint a b
  | composite a, composite b => equalComposite a b
  | closure a, closure b => a.serial = b.serial
  | builtin a, builtin b => a = b
  | _, _ => false
termination_by structural x => x

def equalAll : List Value → List Value → Bool
  | [], [] => true
  | a :: as, b :: bs => equal a b && equalAll as bs
  | _, _ => false
termination_by structural x => x

def equalBody : Body Value → Body Value → Bool
  | ⟨id, shape, params, props, label⟩, b =>
    id = b.id && shape = b.shape && equalMap params b.params && equalMap props b.props &&
      label = b.label
termination_by structural x => x

def equalBodies : List (Body Value) → List (Body Value) → Bool
  | [], [] => true
  | a :: as, b :: bs => equalBody a b && equalBodies as bs
  | _, _ => false
termination_by structural x => x

def equalConstraint : Constraint Value → Constraint Value → Bool
  | ⟨id, source, kind, target, attrs⟩, c =>
    id = c.id && source = c.source && kind = c.kind && target = c.target && equalMap attrs c.attrs
termination_by structural x => x

def equalConstraints : List (Constraint Value) → List (Constraint Value) → Bool
  | [], [] => true
  | a :: as, b :: bs => equalConstraint a b && equalConstraints as bs
  | _, _ => false
termination_by structural x => x

def equalComposite : Composite Value → Composite Value → Bool
  | ⟨id, label, bodies, constraints, composites, transform, props⟩, c =>
    id = c.id && label = c.label && equalBodies bodies c.bodies &&
      equalConstraints constraints c.constraints && equalComposites composites c.composites &&
      transform.same c.transform && equalMap props c.props
termination_by structural x => x

def equalComposites : List (Composite Value) → List (Composite Value) → Bool
  | [], [] => true
  | a :: as, b :: bs => equalComposite a b && equalComposites as bs
  | _, _ => false
termination_by structural x => x

def equalMap : NameMap Value → NameMap Value → Bool
  | ⟨entries⟩, m => entries.length = m.size && equalEntries entries m
termination_by structural x => x

/-- Every entry has an equal value in the map. -/
def equalEntries : List (String × Value) → NameMap Value → Bool
  | [], _ => true
  | (name, a) :: rest, m =>
    (match m.get? name with
      | some b => equal a b
      | none => false) && equalEntries rest m
termination_by structural x => x

end

end RigidScene.Value
