import RigidScene.Proofs.Eval.Relabel
import RigidScene.Proofs.Eval.Sweep

/-!
Successful runs as derivations.

A derivation says which expressions are run in which environments, with one rule for every way in
which a construct of the language can succeed.  It follows calls into the bodies of functions and
loops into their calls, so what every rule keeps is kept by everything a run does, at any depth of
calls.
-/

namespace RigidScene

/-- An environment and the state of a run, which every step takes from the step before it. -/
structure Moment where
  env : Environment
  run : Run

namespace Moment

/-- The number that the next entity gets. -/
def freshId (m : Moment) : EntityId :=
  .ofCount m.run.nextId

/-- One more entity has been numbered. -/
def counted (m : Moment) : Moment :=
  { m with run := { m.run with nextId := m.run.nextId + 1 } }

/-- A body of the block, made now. -/
def newBody (m : Moment) (shape : Shape) (params props : NameMap Value) : Body Value :=
  ⟨m.freshId, shape, params, props, none⟩

/-- The body is in the block. -/
def withBody (m : Moment) (b : Body Value) : Moment :=
  { m.counted with env := { m.env with bodies := m.env.bodies ++ [b] } }

/-- A constraint of the block, made now. -/
def newConstraint (m : Moment) (source : Endpoint) (kind : EdgeKind) (target : Endpoint)
    (attrs : NameMap Value) : Constraint Value :=
  ⟨m.freshId, source, kind, target, attrs⟩

/-- The constraint is in the block. -/
def withConstraint (m : Moment) (c : Constraint Value) : Moment :=
  { m.counted with env := m.env.addConstraint c }

/-- The beginning of a block inside the present one. -/
def opened (m : Moment) : Moment :=
  { m with env := m.env.cleared }

/-- The composite of the block that is at its end. -/
def closed (m : Moment) (transform : Transform) (props : NameMap Value) : Composite Value :=
  m.env.toComposite m.freshId transform props

/-- The block goes on after an inner one that has ended at `inner`. -/
def withComposite (m inner : Moment) (c : Composite Value) : Moment :=
  ⟨{ m.env with composites := m.env.composites ++ [c] }, inner.counted.run⟩

/-- The caller goes on after a call that has ended at `inner`. -/
def returned (m inner : Moment) : Moment :=
  ⟨m.env.withEntitiesOf inner.env, inner.run⟩

/-- One more function has been numbered. -/
def serialled (m : Moment) : Moment :=
  { m with run := { m.run with nextSerial := m.run.nextSerial + 1 } }

/-- The run has been asked to stop. -/
def halted (m : Moment) : Moment :=
  { m with run := { m.run with interrupted := true } }

end Moment

/-- What is carried out at a moment. -/
inductive Job where
  /-- An expression or statement. -/
  | node (node : Node)
  /-- Expressions one after another. -/
  | nodes (nodes : List Node)
  /-- An end of a constraint. -/
  | endpoint (node : Node)
  /-- A call of a value. -/
  | call (name : String) (f : Value) (args : List Value)
  /-- Calls of one function with the indices of each cell. -/
  | sweep (name : String) (f : Value) (cells : List (List Nat)) (last : Value)

/-- The value of an expression that has no parts. -/
def Node.leaf? (env : Environment) : Node → Option Value
  | .symbol name => some ((env.get? name).getD (.string name))
  | .number x => some (.number x)
  | .string s => some (.string s)
  | .bool b => some (.bool b)
  | _ => none

/-- The value is neither a body nor a composite, and by it a program gets at no other value. -/
def Value.Plain : Value → Prop
  | .body _ | .composite _ | .closure _ => False
  | _ => True

section Names

variable {P : Value → Prop} {env : Environment} (plain : ∀ v, v.Plain → P v)
  (labels : ∀ e ∈ env.labels.entries, P e.2)

include plain labels

/-- A bare name means what its label is bound to, or a text. -/
theorem forall_symbol (name : String) : P ((env.get? name).getD (.string name)) := by
  cases bound : env.get? name with
  | none => exact plain _ trivial
  | some v => exact labels (name, v) (NameMap.mem_of_get? bound)

theorem forall_leaf {node : Node} {v : Value} (value : node.leaf? env = some v) : P v := by
  cases node with
  | symbol name =>
    cases value
    exact forall_symbol plain labels name
  | number | string | bool =>
    cases value
    exact plain _ trivial
  | _ => cases value

/-- The name of a call means what its label is bound to, or a built-in. -/
theorem forall_callee {name : String} {f : Value} (found : env.callee name = .ok f) : P f := by
  unfold Environment.callee at found
  cases bound : env.get? name with
  | some v =>
    rw [bound] at found
    cases found
    exact labels (name, _) (NameMap.mem_of_get? bound)
  | none =>
    rw [bound] at found
    cases builtin : Builtin.ofName? name with
    | none => simp [builtin] at found
    | some b =>
      simp only [builtin] at found
      cases found
      exact plain _ trivial

end Names

/-- Attributes with their values; the last value of a key counts. -/
def attrValues (attrs : List (String × Node)) (values : List Value) : NameMap Value :=
  (∅ : NameMap Value).insertAll ((attrs.map Prod.fst).zip values)

namespace Builtin

/-- What an operation does with numbers. -/
def operation? : Builtin → Option (List Float → Float)
  | add => some sum
  | subtract => some difference
  | multiply => some product
  | divide => some quotient
  | _ => none

end Builtin

/-- The job succeeds: from the first moment it answers the values and leads to the second moment. -/
inductive Derived (settings : Settings) : Job → Moment → List Value → Moment → Prop where
  | leaf {node m v} (ready : m.run.interrupted = false) (value : node.leaf? m.env = some v) :
    Derived settings (.node node) m [v] m
  | function {params result m} (ready : m.run.interrupted = false) :
    Derived settings (.node (.function params result)) m
      [.closure ⟨m.run.nextSerial, params, result, m.env.labels⟩] m.serialled
  | vector {x y m vx m₁ vy m' p} (ready : m.run.interrupted = false)
    (first : Derived settings (.node x) m [vx] m₁)
    (second : Derived settings (.node y) m₁ [vy] m') (point : Point.ofValues vx vy = .ok p) :
    Derived settings (.node (.vector x y)) m [.vector p] m'
  | body {name args attrs m shape vs m₁ ws m₂ params} (ready : m.run.interrupted = false)
    (known : Shape.ofName? name = some shape)
    (arguments : Derived settings (.nodes args) m vs m₁)
    (attributes : Derived settings (.nodes (attrs.map Prod.snd)) m₁ ws m₂)
    (fits : shape.assign vs = .ok params) :
    Derived settings (.node (.body name args attrs)) m
      [.body (m₂.newBody shape params (attrValues attrs ws))]
      (m₂.withBody (m₂.newBody shape params (attrValues attrs ws)))
  | constraint {source kind target attrs m v m₁ s w m₂ t ws m₃}
    (ready : m.run.interrupted = false)
    (first : Derived settings (.endpoint source) m [v] m₁) (from_ : Endpoint.ofValue v = .ok s)
    (second : Derived settings (.endpoint target) m₁ [w] m₂) (to_ : Endpoint.ofValue w = .ok t)
    (attributes : Derived settings (.nodes (attrs.map Prod.snd)) m₂ ws m₃) :
    Derived settings (.node (.constraint source kind target attrs)) m
      [.constraint (m₃.newConstraint s kind t (attrValues attrs ws))]
      (m₃.withConstraint (m₃.newConstraint s kind t (attrValues attrs ws)))
  | composite {statements m vs m'} (ready : m.run.interrupted = false)
    (parts : Derived settings (.nodes statements) m vs m') :
    Derived settings (.node (.composite statements)) m [vs.getLastD .unit] m'
  | scope {block attrs m ws m₁ transform props v m₂} (ready : m.run.interrupted = false)
    (attributes : Derived settings (.nodes (attrs.map Prod.snd)) m ws m₁)
    (placed : Transform.split (attrValues attrs ws) = .ok (transform, props))
    (inside : Derived settings (.node block) m₁.opened [v] m₂) :
    Derived settings (.node (.scope block attrs)) m [.composite (m₂.closed transform props)]
      (m₁.withComposite m₂ (m₂.closed transform props))
  | label {name node m v m' env v'} (ready : m.run.interrupted = false)
    (value : Derived settings (.node node) m [v] m')
    (declared : m'.env.declare settings.labelPolicy name v = .ok (env, v')) :
    Derived settings (.node (.label name node)) m [v'] { m' with env }
  | call {callee args m f vs m₁ v m'} (ready : m.run.interrupted = false)
    (found : m.env.callee callee = .ok f)
    (arguments : Derived settings (.nodes args) m vs m₁)
    (called : Derived settings (.call callee f vs) m₁ [v] m') :
    Derived settings (.node (.call callee args)) m [v] m'
  | nil {m} : Derived settings (.nodes []) m [] m
  | cons {node nodes m v m₁ vs m'} (head : Derived settings (.node node) m [v] m₁)
    (tail : Derived settings (.nodes nodes) m₁ vs m') :
    Derived settings (.nodes (node :: nodes)) m (v :: vs) m'
  /-- A bare name is looked up even when the run has been asked to stop. -/
  | endName {name m} :
    Derived settings (.endpoint (.symbol name)) m [(m.env.get? name).getD (.string name)] m
  | endNode {node m v m'} (other : ∀ name, node ≠ .symbol name)
    (value : Derived settings (.node node) m [v] m') : Derived settings (.endpoint node) m [v] m'
  | closure {name c args m env v m'}
    (entered : Closure.prepare c name args settings.maxCallDepth m.env = .ok env)
    (result : Derived settings (.node c.body) { m with env } [v] m') :
    Derived settings (.call name (.closure c) args) m [v] (m.returned m')
  | operation {name b f args xs m} (does : Builtin.operation? b = some f)
    (numbers : b.numbersFrom 1 args = .ok xs) :
    Derived settings (.call name (.builtin b) args) m [.number (f xs)] m
  | halt {name m} : Derived settings (.call name (.builtin .halt) []) m [.unit] m.halted
  | «repeat» {name n f count m v m'} (often : Builtin.countArgument .repeat n = .ok count)
    (swept : Derived settings (.sweep "repeat" f (Builtin.cells 0 count) .unit) m [v] m') :
    Derived settings (.call name (.builtin .repeat) [n, f]) m [v] (m.returned m')
  | grid {name x y f nx ny m v m'} (wide : Builtin.countArgument .grid x = .ok nx)
    (high : Builtin.countArgument .grid y = .ok ny)
    (swept : Derived settings (.sweep "grid" f (Builtin.gridCells nx 0 ny) .unit) m [v] m') :
    Derived settings (.call name (.builtin .grid) [x, y, f]) m [v] (m.returned m')
  | swept {name f last m} : Derived settings (.sweep name f [] last) m [last] m
  | cell {name f indices cells last m v m₁ w m'}
    (head : Derived settings (.call name f (Builtin.loopArguments f indices)) m [v] m₁)
    (tail : Derived settings (.sweep name f cells v) m₁ [w] m') :
    Derived settings (.sweep name f (indices :: cells) last) m [w] m'

/-- Whatever succeeds leaves the depth of calls as it was. -/
theorem Derived.depth_eq {settings : Settings} {job : Job} {m m' : Moment} {vs : List Value}
    (derived : Derived settings job m vs m') : m'.env.depth = m.env.depth := by
  induction derived with
  | leaf | function | nil | endName | operation | halt | swept => rfl
  | closure | «repeat» | grid => rfl
  | composite _ _ ih | endNode _ _ ih => exact ih
  | vector _ _ _ _ first second | body _ _ _ _ _ first second | call _ _ _ _ first second
  | cons _ _ first second | cell _ _ first second => exact second.trans first
  | constraint _ _ _ _ _ _ first second third => exact (third.trans second).trans first
  | scope _ _ _ _ first => exact first
  | label _ _ declared ih => exact (declare_depth declared).trans ih

/-- Whatever succeeds leaves as much room for calls as there was. -/
theorem Derived.room_eq {settings : Settings} {job : Job} {m m' : Moment} {vs : List Value}
    (derived : Derived settings job m vs m') : settings.room m'.env = settings.room m.env := by
  rw [Settings.room, Settings.room, derived.depth_eq]

end RigidScene
