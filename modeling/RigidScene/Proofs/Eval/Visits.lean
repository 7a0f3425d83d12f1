import RigidScene.Proofs.Eval.Answers

/-!
What a run carries out on the way, and what all of it keeps.

`Spawns` leads from a job to the jobs that are its parts, each at the moment at which it begins: the
parts before it have succeeded, the job as a whole may still fail.  `Visits` is any number of such
steps.  `Derived.carried` is the one induction over derivations that statements about environments
need: a relation between moments that is kept by making an entity, by closing a block, by naming
and by coming back from a call is kept by every job.
-/

namespace RigidScene

/-- The job begins with the second job, or comes to it after its earlier parts have succeeded. -/
inductive Spawns (settings : Settings) : Job → Moment → Job → Moment → Prop where
  | abscissa {x y m} (ready : m.run.interrupted = false) :
    Spawns settings (.node (.vector x y)) m (.node x) m
  | ordinate {x y m v m'} (ready : m.run.interrupted = false)
    (before : Derived settings (.node x) m [v] m') :
    Spawns settings (.node (.vector x y)) m (.node y) m'
  | arguments {name args attrs m shape} (ready : m.run.interrupted = false)
    (known : Shape.ofName? name = some shape) :
    Spawns settings (.node (.body name args attrs)) m (.nodes args) m
  | properties {name args attrs m shape vs m'} (ready : m.run.interrupted = false)
    (known : Shape.ofName? name = some shape)
    (before : Derived settings (.nodes args) m vs m') :
    Spawns settings (.node (.body name args attrs)) m (.nodes (attrs.map Prod.snd)) m'
  | source {source kind target attrs m} (ready : m.run.interrupted = false) :
    Spawns settings (.node (.constraint source kind target attrs)) m (.endpoint source) m
  | target {source kind target attrs m v m' s} (ready : m.run.interrupted = false)
    (before : Derived settings (.endpoint source) m [v] m') (source_ : Endpoint.ofValue v = .ok s) :
    Spawns settings (.node (.constraint source kind target attrs)) m (.endpoint target) m'
  | attributes {source kind target attrs m v m₁ s w m' t} (ready : m.run.interrupted = false)
    (first : Derived settings (.endpoint source) m [v] m₁) (source_ : Endpoint.ofValue v = .ok s)
    (second : Derived settings (.endpoint target) m₁ [w] m')
    (target_ : Endpoint.ofValue w = .ok t) :
    Spawns settings (.node (.constraint source kind target attrs)) m
      (.nodes (attrs.map Prod.snd)) m'
  | statements {statements m} (ready : m.run.interrupted = false) :
    Spawns settings (.node (.composite statements)) m (.nodes statements) m
  | placement {block attrs m} (ready : m.run.interrupted = false) :
    Spawns settings (.node (.scope block attrs)) m (.nodes (attrs.map Prod.snd)) m
  | block {block attrs m ws m' transform props} (ready : m.run.interrupted = false)
    (before : Derived settings (.nodes (attrs.map Prod.snd)) m ws m')
    (placed : Transform.split (attrValues attrs ws) = .ok (transform, props)) :
    Spawns settings (.node (.scope block attrs)) m (.node block) m'.opened
  | labelled {name node m} (ready : m.run.interrupted = false) :
    Spawns settings (.node (.label name node)) m (.node node) m
  | passed {callee args m f} (ready : m.run.interrupted = false)
    (found : m.env.callee callee = .ok f) :
    Spawns settings (.node (.call callee args)) m (.nodes args) m
  | called {callee args m f vs m'} (ready : m.run.interrupted = false)
    (found : m.env.callee callee = .ok f) (before : Derived settings (.nodes args) m vs m') :
    Spawns settings (.node (.call callee args)) m (.call callee f vs) m'
  | head {node nodes m} : Spawns settings (.nodes (node :: nodes)) m (.node node) m
  | tail {node nodes m v m'} (before : Derived settings (.node node) m [v] m') :
    Spawns settings (.nodes (node :: nodes)) m (.nodes nodes) m'
  | endNode {node m} (other : ∀ name, node ≠ .symbol name) :
    Spawns settings (.endpoint node) m (.node node) m
  | entered {name c args m env}
    (entered : Closure.prepare c name args settings.maxCallDepth m.env = .ok env) :
    Spawns settings (.call name (.closure c) args) m (.node c.body) { m with env }
  | repeated {name n f count m} (often : Builtin.countArgument .repeat n = .ok count) :
    Spawns settings (.call name (.builtin .repeat) [n, f]) m
      (.sweep "repeat" f (Builtin.cells 0 count) .unit) m
  | gridded {name x y f nx ny m} (wide : Builtin.countArgument .grid x = .ok nx)
    (high : Builtin.countArgument .grid y = .ok ny) :
    Spawns settings (.call name (.builtin .grid) [x, y, f]) m
      (.sweep "grid" f (Builtin.gridCells nx 0 ny) .unit) m
  | cell {name f indices cells last m} :
    Spawns settings (.sweep name f (indices :: cells) last) m
      (.call name f (Builtin.loopArguments f indices)) m
  | cells {name f indices cells last m v m'}
    (before : Derived settings (.call name f (Builtin.loopArguments f indices)) m [v] m') :
    Spawns settings (.sweep name f (indices :: cells) last) m (.sweep name f cells v) m'

/-- The first job carries the second one out, itself or in its parts. -/
inductive Visits (settings : Settings) (job : Job) (m : Moment) : Job → Moment → Prop where
  | here : Visits settings job m job m
  | part {job₁ m₁ job₂ m₂} (visited : Visits settings job m job₁ m₁)
    (spawned : Spawns settings job₁ m₁ job₂ m₂) : Visits settings job m job₂ m₂

theorem Visits.trans {settings : Settings} {job job₁ job₂ : Job} {m m₁ m₂ : Moment}
    (one : Visits settings job m job₁ m₁) (two : Visits settings job₁ m₁ job₂ m₂) :
    Visits settings job m job₂ m₂ := by
  induction two with
  | here => exact one
  | part _ spawned ih => exact .part ih spawned

/-- A list of nodes that succeeds is run up to any of them, then this one is run, then the rest. -/
theorem Derived.nodes_at {settings : Settings} {nodes : List Node} {i : Nat} {node : Node}
    {m m' : Moment} {vs : List Value} (derived : Derived settings (.nodes nodes) m vs m')
    (place : nodes[i]? = some node) :
    ∃ v m₁ m₂, Derived settings (.nodes (nodes.take i)) m (vs.take i) m₁ ∧
      Derived settings (.node node) m₁ [v] m₂ ∧
      Derived settings (.nodes (nodes.drop (i + 1))) m₂ (vs.drop (i + 1)) m' ∧
      vs[i]? = some v ∧ Visits settings (.nodes nodes) m (.node node) m₁ := by
  induction nodes generalizing i m vs with
  | nil => cases place
  | cons first rest ih =>
    cases derived with
    | cons head tail =>
      cases i with
      | zero =>
        cases place
        exact ⟨_, _, _, .nil, head, tail, rfl, .part .here .head⟩
      | succ i =>
        obtain ⟨v, m₁, m₂, before, here, behind, value, visited⟩ := ih tail place
        have begun : Visits settings (.nodes (first :: rest)) m (.nodes rest) _ :=
          .part .here (.tail head)
        exact ⟨v, m₁, m₂, .cons head before, here, behind, value, begun.trans visited⟩

/-- The two environments hold the same entities. -/
def Environment.SameEntities (env other : Environment) : Prop :=
  env.bodies = other.bodies ∧ env.constraints = other.constraints ∧
    env.composites = other.composites

theorem Environment.SameEntities.refl (env : Environment) : env.SameEntities env :=
  ⟨rfl, rfl, rfl⟩

theorem define_sameEntities (env : Environment) (name : String) (v : Value) :
    (env.define name v).SameEntities env :=
  ⟨rfl, rfl, rfl⟩

theorem withEntitiesOf_sameEntities (env inner : Environment) :
    (env.withEntitiesOf inner).SameEntities inner :=
  ⟨rfl, rfl, rfl⟩

theorem prepare_sameEntities {c : Closure Value} {name : String} {args : List Value} {limit : Nat}
    {env inner : Environment} (h : c.prepare name args limit env = .ok inner) :
    inner.SameEntities env := by
  obtain ⟨_, _, rfl⟩ := prepare_ok_iff.mp h
  exact ⟨rfl, rfl, rfl⟩

/-- What each change to a moment keeps.  `P` holds of the jobs in question and of their parts. -/
structure Carried (settings : Settings) (P : Job → Moment → Prop) (I : Moment → Moment → Prop) :
    Prop where
  inherited : ∀ {job m job' m'}, P job m → Spawns settings job m job' m' → P job' m'
  refl : ∀ m, I m m
  trans : ∀ {m₁ m₂ m₃}, I m₁ m₂ → I m₂ m₃ → I m₁ m₃
  serialled : ∀ m, I m m.serialled
  halted : ∀ m, I m m.halted
  body : ∀ {name args attrs start} m shape params props, P (.node (.body name args attrs)) start →
    Derived settings (.node (.body name args attrs)) start
      [.body (m.newBody shape params props)] (m.withBody (m.newBody shape params props)) →
    I m (m.withBody (m.newBody shape params props))
  constraint : ∀ m source kind target attrs,
    I m (m.withConstraint (m.newConstraint source kind target attrs))
  scope : ∀ {m m'} transform props, I m.opened m' →
    I m (m.withComposite m' (m'.closed transform props))
  label : ∀ {name node m v m' env v'}, P (.node (.label name node)) m →
    Derived settings (.node node) m [v] m' →
    m'.env.declare settings.labelPolicy name v = .ok (env, v') → I m m' → I m { m' with env }
  returned : ∀ {m env m'}, env.SameEntities m.env → I { m with env } m' → I m (m.returned m')

/-- What every change to a moment keeps is kept by every job that succeeds. -/
theorem Derived.carried {settings : Settings} {P : Job → Moment → Prop} {I : Moment → Moment → Prop}
    (keeps : Carried settings P I) {job : Job} {m m' : Moment} {vs : List Value}
    (derived : Derived settings job m vs m') (start : P job m) : I m m' := by
  induction derived with
  | leaf | operation | nil | endName | swept => exact keeps.refl _
  | function => exact keeps.serialled _
  | halt => exact keeps.halted _
  | vector ready first _ _ ih₁ ih₂ =>
    have one := ih₁ (keeps.inherited start (.abscissa ready))
    have two := ih₂ (keeps.inherited start (.ordinate ready first))
    exact keeps.trans one two
  | body ready known arguments attributes fits ih₁ ih₂ =>
    have one := ih₁ (keeps.inherited start (.arguments ready known))
    have two := ih₂ (keeps.inherited start (.properties ready known arguments))
    have made := Derived.body ready known arguments attributes fits
    exact keeps.trans (keeps.trans one two) (keeps.body _ _ _ _ start made)
  | constraint ready first source second target _ ih₁ ih₂ ih₃ =>
    have one := ih₁ (keeps.inherited start (.source ready))
    have two := ih₂ (keeps.inherited start (.target ready first source))
    have three := ih₃ (keeps.inherited start (.attributes ready first source second target))
    exact keeps.trans (keeps.trans (keeps.trans one two) three) (keeps.constraint _ _ _ _ _)
  | composite ready _ ih => exact ih (keeps.inherited start (.statements ready))
  | scope ready attributes placed _ ih₁ ih₂ =>
    have one := ih₁ (keeps.inherited start (.placement ready))
    have inside := ih₂ (keeps.inherited start (.block ready attributes placed))
    exact keeps.trans one (keeps.scope _ _ inside)
  | label ready value declared ih =>
    have before := ih (keeps.inherited start (.labelled ready))
    exact keeps.label start value declared before
  | call ready found arguments _ ih₁ ih₂ =>
    have one := ih₁ (keeps.inherited start (.passed ready found))
    have two := ih₂ (keeps.inherited start (.called ready found arguments))
    exact keeps.trans one two
  | cons head _ ih₁ ih₂ =>
    have one := ih₁ (keeps.inherited start .head)
    have two := ih₂ (keeps.inherited start (.tail head))
    exact keeps.trans one two
  | endNode other _ ih => exact ih (keeps.inherited start (.endNode other))
  | closure entered _ ih =>
    have inside := ih (keeps.inherited start (.entered entered))
    exact keeps.returned (prepare_sameEntities entered) inside
  | «repeat» often _ ih =>
    have inside := ih (keeps.inherited start (.repeated often))
    exact keeps.returned (.refl _) inside
  | grid wide high _ ih =>
    have inside := ih (keeps.inherited start (.gridded wide high))
    exact keeps.returned (.refl _) inside
  | cell head _ ih₁ ih₂ =>
    have one := ih₁ (keeps.inherited start .cell)
    have two := ih₂ (keeps.inherited start (.cells head))
    exact keeps.trans one two

/-- What every job that succeeds keeps, and what an inner block and a function's body begin with if
the moment before has it, every part of a job begins with. -/
theorem Spawns.keeps {settings : Settings} {P : Moment → Prop}
    (kept : ∀ {job m vs m'}, Derived settings job m vs m' → P m → P m')
    (opened : ∀ {m : Moment}, P m → P m.opened)
    (entered : ∀ {m : Moment} {env}, env.SameEntities m.env → P m → P { m with env })
    {job job' : Job} {m m' : Moment} (spawned : Spawns settings job m job' m') (holds : P m) :
    P m' := by
  cases spawned with
  | abscissa | arguments | source | statements | placement | labelled | passed | head | endNode
  | repeated | gridded | cell => exact holds
  | ordinate _ before | properties _ _ before | target _ before | called _ _ before | tail before
  | cells before => exact kept before holds
  | attributes _ first _ second => exact kept second (kept first holds)
  | block _ before => exact opened (kept before holds)
  | entered prepared => exact entered (prepare_sameEntities prepared) holds

/-- A run of the program comes to the moment: something that it carries out begins there, or ends
there with success. -/
inductive Reaches (settings : Settings) (program : Node) (run : Run) : Moment → Prop where
  | begins {job m} (visited : Visits settings (.node program) ⟨.empty, run⟩ job m) :
    Reaches settings program run m
  | ends {job m vs m'} (visited : Visits settings (.node program) ⟨.empty, run⟩ job m)
    (derived : Derived settings job m vs m') : Reaches settings program run m'

/-- What holds at the start and is kept by everything that a run can do holds at every moment that
the run comes to. -/
theorem Reaches.keeps {settings : Settings} {program : Node} {run : Run} {P : Moment → Prop}
    (start : P ⟨.empty, run⟩) (kept : ∀ {job m vs m'}, Derived settings job m vs m' → P m → P m')
    (opened : ∀ {m : Moment}, P m → P m.opened)
    (entered : ∀ {m : Moment} {env}, env.SameEntities m.env → P m → P { m with env })
    {m : Moment} (reached : Reaches settings program run m) : P m := by
  have visits {job m} (visited : Visits settings (.node program) ⟨.empty, run⟩ job m) : P m := by
    induction visited with
    | here => exact start
    | part _ spawned ih => exact spawned.keeps kept opened entered ih
  cases reached with
  | begins visited => exact visits visited
  | ends visited derived => exact kept derived (visits visited)

end RigidScene
