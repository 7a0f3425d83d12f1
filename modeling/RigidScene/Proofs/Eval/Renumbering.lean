import Mathlib.Logic.Function.Basic
import RigidScene.Proofs.Eval.Relabel
import RigidScene.Scene

/-!
Entities under other numbers.

`Value.renumber` puts another number in the place of every number in a value: of entities, of ends
of constraints, and of what is nested in parameters, properties, attributes and captured labels.
What a program does with values looks at numbers only to compare them.  So under numbers that are as
different as the old ones everything is done alike, and the lemmas here say so of each operation on
environments, values and maps.
-/

namespace RigidScene

/-- The end of a constraint under another number. -/
def Endpoint.renumber (f : EntityId → EntityId) : Endpoint → Endpoint
  | .id n => .id (f n)
  | .label name => .label name

mutual

/-- The value with other numbers in it. -/
def Value.renumber (f : EntityId → EntityId) : Value → Value
  | .list items => .list (Value.renumberAll f items)
  | .body b => .body (Body.renumber f b)
  | .constraint c => .constraint (Constraint.renumber f c)
  | .composite c => .composite (Composite.renumber f c)
  | .closure c => .closure (Closure.renumber f c)
  | .unit => .unit
  | .bool b => .bool b
  | .number x => .number x
  | .string s => .string s
  | .vector p => .vector p
  | .builtin b => .builtin b
termination_by structural v => v

def Value.renumberAll (f : EntityId → EntityId) : List Value → List Value
  | [] => []
  | v :: vs => Value.renumber f v :: Value.renumberAll f vs
termination_by structural vs => vs

def Body.renumber (f : EntityId → EntityId) : Body Value → Body Value
  | ⟨id, shape, params, props, label⟩ =>
    ⟨f id, shape, NameMap.renumber f params, NameMap.renumber f props, label⟩
termination_by structural b => b

def Body.renumberAll (f : EntityId → EntityId) : List (Body Value) → List (Body Value)
  | [] => []
  | b :: bs => Body.renumber f b :: Body.renumberAll f bs
termination_by structural bs => bs

def Constraint.renumber (f : EntityId → EntityId) : Constraint Value → Constraint Value
  | ⟨id, source, kind, target, attrs⟩ =>
    ⟨f id, source.renumber f, kind, target.renumber f, NameMap.renumber f attrs⟩
termination_by structural c => c

def Constraint.renumberAll (f : EntityId → EntityId) :
    List (Constraint Value) → List (Constraint Value)
  | [] => []
  | c :: cs => Constraint.renumber f c :: Constraint.renumberAll f cs
termination_by structural cs => cs

def Composite.renumber (f : EntityId → EntityId) : Composite Value → Composite Value
  | ⟨id, label, bodies, constraints, composites, transform, props⟩ =>
    ⟨f id, label, Body.renumberAll f bodies, Constraint.renumberAll f constraints,
      Composite.renumberAll f composites, transform, NameMap.renumber f props⟩
termination_by structural c => c

def Composite.renumberAll (f : EntityId → EntityId) :
    List (Composite Value) → List (Composite Value)
  | [] => []
  | c :: cs => Composite.renumber f c :: Composite.renumberAll f cs
termination_by structural cs => cs

def Closure.renumber (f : EntityId → EntityId) : Closure Value → Closure Value
  | ⟨serial, params, body, captured⟩ => ⟨serial, params, body, NameMap.renumber f captured⟩
termination_by structural c => c

def NameMap.renumber (f : EntityId → EntityId) : NameMap Value → NameMap Value
  | ⟨entries⟩ => ⟨NameMap.renumberEntries f entries⟩
termination_by structural m => m

def NameMap.renumberEntries (f : EntityId → EntityId) :
    List (String × Value) → List (String × Value)
  | [] => []
  | (name, v) :: rest => (name, Value.renumber f v) :: NameMap.renumberEntries f rest
termination_by structural es => es

end

section Lists

variable (f : EntityId → EntityId)

@[simp] theorem Value.renumberAll_eq (vs : List Value) :
    Value.renumberAll f vs = vs.map (Value.renumber f) := by
  induction vs with
  | nil => rfl
  | cons v vs ih => rw [Value.renumberAll, ih, List.map_cons]

@[simp] theorem Body.renumberAll_eq (bs : List (Body Value)) :
    Body.renumberAll f bs = bs.map (Body.renumber f) := by
  induction bs with
  | nil => rfl
  | cons b bs ih => rw [Body.renumberAll, ih, List.map_cons]

@[simp] theorem Constraint.renumberAll_eq (cs : List (Constraint Value)) :
    Constraint.renumberAll f cs = cs.map (Constraint.renumber f) := by
  induction cs with
  | nil => rfl
  | cons c cs ih => rw [Constraint.renumberAll, ih, List.map_cons]

@[simp] theorem Composite.renumberAll_eq (cs : List (Composite Value)) :
    Composite.renumberAll f cs = cs.map (Composite.renumber f) := by
  induction cs with
  | nil => rfl
  | cons c cs ih => rw [Composite.renumberAll, ih, List.map_cons]

@[simp] theorem NameMap.renumberEntries_eq (es : List (String × Value)) :
    NameMap.renumberEntries f es = es.map fun e => (e.1, e.2.renumber f) := by
  induction es with
  | nil => rfl
  | cons e es ih => rw [NameMap.renumberEntries, ih, List.map_cons]

end Lists

namespace NameMap

variable (f : EntityId → EntityId)

theorem renumber_mk (es : List (String × Value)) :
    renumber f ⟨es⟩ = ⟨es.map fun e => (e.1, e.2.renumber f)⟩ := by
  rw [renumber, renumberEntries_eq]

@[simp] theorem renumber_empty : renumber f ∅ = ∅ := rfl

theorem get?_renumber (m : NameMap Value) (name : String) :
    (m.renumber f).get? name = (m.get? name).map (Value.renumber f) := by
  obtain ⟨es⟩ := m
  rw [renumber_mk, get?, get?]
  induction es with
  | nil => rfl
  | cons e es ih =>
    rw [List.map_cons, lookup_cons, lookup_cons, ih]
    split <;> rfl

theorem contains_renumber (m : NameMap Value) (name : String) :
    (m.renumber f).contains name = m.contains name := by
  rw [contains, contains, get?_renumber, Option.isSome_map]

theorem insert_renumber (m : NameMap Value) (name : String) (v : Value) :
    (m.insert name v).renumber f = (m.renumber f).insert name (v.renumber f) := by
  obtain ⟨es⟩ := m
  simp only [insert, renumber_mk, mk.injEq]
  induction es with
  | nil => rfl
  | cons e es ih =>
    simp only [insertEntry, List.map_cons]
    split
    · rfl
    · rw [List.map_cons, ih]

theorem insertAll_renumber (m : NameMap Value) (es : List (String × Value)) :
    (m.insertAll es).renumber f =
      (m.renumber f).insertAll (es.map fun e => (e.1, e.2.renumber f)) := by
  induction es generalizing m with
  | nil => rfl
  | cons e es ih =>
    rw [insertAll, List.foldl_cons, ← insertAll, ih, insert_renumber]
    rfl

theorem withFallback_renumber (m fallback : NameMap Value) :
    (m.withFallback fallback).renumber f =
      (m.renumber f).withFallback (fallback.renumber f) := by
  obtain ⟨es⟩ := fallback
  simp only [withFallback, insertAll_renumber, renumber_mk, contains_renumber, List.filter_map]
  rfl

theorem erase_renumber (m : NameMap Value) (name : String) :
    (m.erase name).renumber f = (m.renumber f).erase name := by
  obtain ⟨es⟩ := m
  simp only [erase, renumber_mk, List.filter_map]
  rfl

end NameMap

section Same

mutual

/-- A value whose numbers are replaced by themselves is the same. -/
theorem Value.renumber_id : ∀ v : Value, v.renumber id = v
  | .list items => by rw [Value.renumber, Value.renumberAll_id items]
  | .body b => by rw [Value.renumber, Body.renumber_id b]
  | .constraint c => by rw [Value.renumber, Constraint.renumber_id c]
  | .composite c => by rw [Value.renumber, Composite.renumber_id c]
  | .closure c => by rw [Value.renumber, Closure.renumber_id c]
  | .unit | .bool _ | .number _ | .string _ | .vector _ | .builtin _ => by rw [Value.renumber]

theorem Value.renumberAll_id : ∀ vs : List Value, Value.renumberAll id vs = vs
  | [] => rfl
  | v :: vs => by rw [Value.renumberAll, Value.renumber_id v, Value.renumberAll_id vs]

theorem Body.renumber_id : ∀ b : Body Value, b.renumber id = b
  | ⟨_, _, params, props, _⟩ => by
    rw [Body.renumber, NameMap.renumber_id params, NameMap.renumber_id props]
    rfl

theorem Body.renumberAll_id : ∀ bs : List (Body Value), Body.renumberAll id bs = bs
  | [] => rfl
  | b :: bs => by rw [Body.renumberAll, Body.renumber_id b, Body.renumberAll_id bs]

theorem Constraint.renumber_id : ∀ c : Constraint Value, c.renumber id = c
  | ⟨_, source, _, target, attrs⟩ => by
    rw [Constraint.renumber, NameMap.renumber_id attrs]
    cases source <;> cases target <;> rfl

theorem Constraint.renumberAll_id :
    ∀ cs : List (Constraint Value), Constraint.renumberAll id cs = cs
  | [] => rfl
  | c :: cs => by
    rw [Constraint.renumberAll, Constraint.renumber_id c, Constraint.renumberAll_id cs]

theorem Composite.renumber_id : ∀ c : Composite Value, c.renumber id = c
  | ⟨_, _, bodies, constraints, composites, _, props⟩ => by
    rw [Composite.renumber, Body.renumberAll_id bodies, Constraint.renumberAll_id constraints,
      Composite.renumberAll_id composites, NameMap.renumber_id props]
    rfl

theorem Composite.renumberAll_id : ∀ cs : List (Composite Value), Composite.renumberAll id cs = cs
  | [] => rfl
  | c :: cs => by
    rw [Composite.renumberAll, Composite.renumber_id c, Composite.renumberAll_id cs]

theorem Closure.renumber_id : ∀ c : Closure Value, c.renumber id = c
  | ⟨_, _, _, captured⟩ => by rw [Closure.renumber, NameMap.renumber_id captured]

theorem NameMap.renumber_id : ∀ m : NameMap Value, m.renumber id = m
  | ⟨entries⟩ => by rw [NameMap.renumber, NameMap.renumberEntries_id entries]

theorem NameMap.renumberEntries_id :
    ∀ es : List (String × Value), NameMap.renumberEntries id es = es
  | [] => rfl
  | (_, v) :: rest => by
    rw [NameMap.renumberEntries, Value.renumber_id v, NameMap.renumberEntries_id rest]

end

end Same

section Values

variable (f : EntityId → EntityId)

@[simp] theorem Value.renumber_kind (v : Value) : (v.renumber f).kind = v.kind := by
  cases v <;> rw [Value.renumber] <;> rfl

theorem Value.unlabelled?_renumber (v : Value) :
    (v.renumber f).unlabelled? = v.unlabelled?.map f := by
  cases v with
  | body b => cases b with | mk _ _ _ _ label => cases label <;> rfl
  | composite c => cases c with | mk _ label _ _ _ _ _ => cases label <;> rfl
  | _ => rfl

theorem Value.withLabel_renumber (name : String) (v : Value) :
    (v.withLabel name).renumber f = (v.renumber f).withLabel name := by
  cases v with
  | body b => cases b; rfl
  | composite c => cases c; rfl
  | _ => rfl

theorem loopArguments_renumber (g : Value) (indices : List Nat) :
    (Builtin.loopArguments g indices).map (Value.renumber f) =
      Builtin.loopArguments (g.renumber f) indices := by
  have numbers : (indices.map fun i => Value.number (Float.ofNat i)).map (Value.renumber f) =
      indices.map fun i => .number (Float.ofNat i) := by
    rw [List.map_map]
    rfl
  cases g with
  | closure c =>
    cases c with
    | mk _ params _ _ => cases params with
      | nil => rfl
      | cons => exact numbers
  | _ => exact numbers

theorem attrs_renumber (keys : List String) (vs : List Value) :
    (keys.zip vs).map (fun e => (e.1, e.2.renumber f)) = keys.zip (vs.map (Value.renumber f)) := by
  rw [List.zip_map_right]
  rfl

end Values

/-- The environment with other numbers in it. -/
def Environment.renumber (f : EntityId → EntityId) (env : Environment) : Environment where
  labels := env.labels.renumber f
  bodies := env.bodies.map (Body.renumber f)
  constraints := env.constraints.map (Constraint.renumber f)
  composites := env.composites.map (Composite.renumber f)
  depth := env.depth

/-- The error with other numbers in it: it may carry labels. -/
def EvalError.renumber (f : EntityId → EntityId) : EvalError → EvalError
  | .functionNotFound name labels => .functionNotFound name (labels.renumber f)
  | e => e

/-- The scene with other numbers on everything but its root. -/
def Scene.renumber (f : EntityId → EntityId) (scene : Scene) : Scene where
  root := { scene.root.renumber f with id := scene.root.id }
  value := scene.value.renumber f

namespace Environment

variable (f : EntityId → EntityId)

theorem renumber_id (env : Environment) : env.renumber id = env := by
  have bodies : env.bodies.map (Body.renumber id) = env.bodies := by
    rw [← Body.renumberAll_eq, Body.renumberAll_id]
  have constraints : env.constraints.map (Constraint.renumber id) = env.constraints := by
    rw [← Constraint.renumberAll_eq, Constraint.renumberAll_id]
  have composites : env.composites.map (Composite.renumber id) = env.composites := by
    rw [← Composite.renumberAll_eq, Composite.renumberAll_id]
  rw [renumber, bodies, constraints, composites, NameMap.renumber_id]

@[simp] theorem get?_renumber (env : Environment) (name : String) :
    (env.renumber f).get? name = (env.get? name).map (Value.renumber f) :=
  NameMap.get?_renumber f env.labels name

/-- What a bare name means. -/
theorem symbol_renumber (env : Environment) (name : String) :
    ((env.renumber f).get? name).getD (.string name) =
      ((env.get? name).getD (.string name)).renumber f := by
  rw [get?_renumber]
  cases env.get? name <;> rfl

theorem define_renumber (env : Environment) (name : String) (v : Value) :
    (env.define name v).renumber f = (env.renumber f).define name (v.renumber f) := by
  simp only [define, renumber, NameMap.insert_renumber]

theorem addConstraint_renumber (env : Environment) (c : Constraint Value) :
    (env.addConstraint c).renumber f = (env.renumber f).addConstraint (c.renumber f) := by
  simp only [addConstraint, renumber, List.map_append, List.map_singleton]

theorem toComposite_renumber (env : Environment) (id : EntityId) (transform : Transform)
    (props : NameMap Value) :
    (env.toComposite id transform props).renumber f =
      (env.renumber f).toComposite (f id) transform (props.renumber f) := by
  simp only [toComposite, renumber, Composite.renumber, Body.renumberAll_eq,
    Constraint.renumberAll_eq, Composite.renumberAll_eq]

/-- Different numbers stay different, so the same labels are taken. -/
theorem labelTaken_renumber {f : EntityId → EntityId} (injective : Function.Injective f)
    (env : Environment) (name : String) (owner : EntityId) :
    (env.renumber f).labelTaken name (f owner) = env.labelTaken name owner := by
  have body (b : Body Value) : ((b.renumber f).id ≠ f owner && (b.renumber f).label = some name) =
      (b.id ≠ owner && b.label = some name) := by
    cases b
    exact congrArg (· && _) (decide_eq_decide.mpr injective.ne_iff)
  have composite (c : Composite Value) :
      ((c.renumber f).id ≠ f owner && (c.renumber f).label = some name) =
        (c.id ≠ owner && c.label = some name) := by
    cases c
    exact congrArg (· && _) (decide_eq_decide.mpr injective.ne_iff)
  simp only [labelTaken, renumber, List.any_map, Function.comp_def, body, composite]

end Environment

end RigidScene
