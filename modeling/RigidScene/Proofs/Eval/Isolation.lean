import RigidScene.Proofs.Eval.Coherence

/-!
A block that is closed off holds what its statements would have added around it.

The same statements are run twice: in the block around them, where labels may be given to entities
that were there before, and in a block of their own, where such entities are out of reach and only
the values that stand for them take the labels.  `Environment.Joins` relates the two on the way: the
first block is what was there before, up to labels, followed by the second one.  The values are the
same in both runs because a block agrees with every value that a program can get at
(`Moment.Coherent`); `Derived.isolated` is the induction.
-/

namespace RigidScene

open Value

/-- An entity that takes a name where a value cannot reach it: the value takes the same name and is
then what the entity has become. -/
theorem named_outside {α : Type} (make : α → Value) (bare : α → α) {number : α → EntityId}
    {rename : α → α} {env : Environment} {id : EntityId} {name : String} {v : Value}
    (own : ∀ a, (make a).entityId? = some (number a))
    (renames : ∀ a, (make a).withLabel name = make (rename a))
    (alone : ∀ a, bare (rename a) = bare a)
    (agrees : ∀ w ∈ env.entities, w.entityId? = some id → w.bare = v.bare) {kept : List α}
    (held : ∀ a ∈ kept, make a ∈ env.entities) {answer : α × List α}
    (found : updateLast? (fun a => number a = id) rename kept = some answer) :
    answer.2.map bare = kept.map bare ∧ v.withLabel name = make answer.1 ∧
      ∃ a, (make a).bare = v.bare := by
  obtain ⟨renamed, a, member, numbered, changed⟩ := updateLast?_mem found bare alone
  have same : (make a).bare = v.bare :=
    agrees _ (held a member) ((own a).trans (congrArg some (of_decide_eq_true numbered)))
  refine ⟨renamed, ?_, a, same⟩
  rw [changed, ← renames, withLabel_congr same]

namespace Environment

/-- The block is the outer one, up to labels, followed by the inner one, and has the labels and the
depth of the inner one. -/
structure Joins (env outer inner : Environment) : Prop where
  labels : env.labels = inner.labels
  depth : env.depth = inner.depth
  bodies : ∃ kept, env.bodies = kept ++ inner.bodies ∧
    kept.map Body.bare = outer.bodies.map Body.bare
  constraints : env.constraints = outer.constraints ++ inner.constraints
  composites : ∃ kept, env.composites = kept ++ inner.composites ∧
    kept.map Composite.bare = outer.composites.map Composite.bare

namespace Joins

variable {env env' outer inner inner' : Environment}

theorem cleared (env : Environment) : env.Joins env env.cleared :=
  ⟨rfl, rfl, ⟨env.bodies, (List.append_nil _).symm, rfl⟩, (List.append_nil _).symm,
    ⟨env.composites, (List.append_nil _).symm, rfl⟩⟩

/-- The same entities under other labels and at another depth. -/
theorem relabelled (joins : env.Joins outer inner) (same : env'.SameEntities env)
    (same_inner : inner'.SameEntities inner) (labels : env'.labels = inner'.labels)
    (depth : env'.depth = inner'.depth) : env'.Joins outer inner' := by
  obtain ⟨bodies, constraints, composites⟩ := same
  obtain ⟨bodies', constraints', composites'⟩ := same_inner
  refine ⟨labels, depth, ?_, ?_, ?_⟩
  · rw [bodies, bodies']
    exact joins.bodies
  · rw [constraints, constraints']
    exact joins.constraints
  · rw [composites, composites']
    exact joins.composites

theorem withBody (joins : env.Joins outer inner) (b : Body Value) :
    Joins { env with bodies := env.bodies ++ [b] } outer
      { inner with bodies := inner.bodies ++ [b] } := by
  obtain ⟨kept, whole, same⟩ := joins.bodies
  exact ⟨joins.labels, joins.depth, ⟨kept, by rw [whole, List.append_assoc], same⟩,
    joins.constraints, joins.composites⟩

theorem withConstraint (joins : env.Joins outer inner) (c : Constraint Value) :
    (env.addConstraint c).Joins outer (inner.addConstraint c) :=
  ⟨joins.labels, joins.depth, joins.bodies,
    by rw [addConstraint, joins.constraints, List.append_assoc]; rfl, joins.composites⟩

theorem withComposite (joins : env.Joins outer inner) (c : Composite Value) :
    Joins { env with composites := env.composites ++ [c] } outer
      { inner with composites := inner.composites ++ [c] } := by
  obtain ⟨kept, whole, same⟩ := joins.composites
  exact ⟨joins.labels, joins.depth, joins.bodies, joins.constraints,
    ⟨kept, by rw [whole, List.append_assoc], same⟩⟩

theorem checkLabel (joins : env.Joins outer inner) {policy : LabelPolicy} {id : EntityId}
    {name : String} (checked : env.checkLabel policy id name = .ok ()) :
    inner.checkLabel policy id name = .ok () := by
  obtain ⟨kept, bodies, _⟩ := joins.bodies
  obtain ⟨kept', composites, _⟩ := joins.composites
  have fewer (taken : inner.labelTaken name id = true) : env.labelTaken name id = true := by
    rw [labelTaken, Bool.or_eq_true] at taken ⊢
    rw [bodies, composites, List.any_append, List.any_append, Bool.or_eq_true, Bool.or_eq_true]
    exact taken.imp .inr .inr
  unfold Environment.checkLabel at checked ⊢
  split at checked
  · cases checked
  · rename_i free
    exact if_neg fun refused => free (refused.imp_right fewer)

/-- Naming what a value stands for does the same in both blocks, except that an entity out of reach
is not changed there: then the value takes the name by itself, with the same result. -/
theorem relabel (joins : env.Joins outer inner) {policy : LabelPolicy} {id : EntityId}
    {name : String} {v : Value} {found : Option Value}
    (agrees : ∀ w ∈ env.entities, w.entityId? = some id → w.bare = v.bare)
    (named : env.relabel policy id name = .ok (env', found)) :
    ∃ inner' found', inner.relabel policy id name = .ok (inner', found') ∧
      found'.getD (v.withLabel name) = found.getD (v.withLabel name) ∧
        env'.Joins outer inner' := by
  obtain ⟨kept, bodies, same⟩ := joins.bodies
  obtain ⟨kept', composites, same'⟩ := joins.composites
  have checked := relabel_checked named
  rw [relabel_eq (joins.checkLabel checked)]
  rw [relabel_eq checked, bodies, composites, updateLast?_append, updateLast?_append] at named
  cases body : updateLast? (·.id = id) ({ · with label := some name }) inner.bodies with
  | some answer =>
    rw [body] at named
    cases named
    exact ⟨_, _, rfl, rfl, joins.labels, joins.depth, ⟨kept, rfl, same⟩, joins.constraints,
      ⟨kept', rfl, same'⟩⟩
  | none =>
    rw [body] at named
    cases outside : updateLast? (·.id = id) ({ · with label := some name }) kept with
    | some answer =>
      rw [outside] at named
      cases named
      have held : ∀ b ∈ kept, Value.body b ∈ env.entities :=
        fun b member => mem_entities.mpr (.inl ⟨b, by simp [bodies, member], rfl⟩)
      obtain ⟨renamed, value, b, body⟩ := named_outside .body Body.bare (fun _ => rfl)
        (fun _ => rfl) (fun _ => rfl) agrees held outside
      have absent : ∀ c ∈ inner.composites, c.id ≠ id := by
        intro c member number
        have held : Value.composite c ∈ env.entities :=
          mem_entities.mpr (.inr ⟨c, by simp [composites, member], rfl⟩)
        exact nomatch body.trans (agrees _ held (congrArg some number)).symm
      have composite : updateLast? (·.id = id) ({ · with label := some name })
          inner.composites = none := updateLast?_none_iff.mpr (by simpa using absent)
      rw [composite]
      exact ⟨inner, none, rfl, value, joins.labels, joins.depth,
        ⟨answer.2, rfl, renamed.trans same⟩, joins.constraints, ⟨kept', rfl, same'⟩⟩
    | none =>
      rw [outside] at named
      cases composite : updateLast? (·.id = id) ({ · with label := some name })
        inner.composites with
      | some answer =>
        rw [composite] at named
        cases named
        exact ⟨_, _, rfl, rfl, joins.labels, joins.depth, ⟨kept, rfl, same⟩, joins.constraints,
          ⟨kept', rfl, same'⟩⟩
      | none =>
        rw [composite] at named
        cases outside : updateLast? (·.id = id) ({ · with label := some name }) kept' with
        | some answer =>
          rw [outside] at named
          cases named
          have held : ∀ c ∈ kept', Value.composite c ∈ env.entities :=
            fun c member => mem_entities.mpr (.inr ⟨c, by simp [composites, member], rfl⟩)
          obtain ⟨renamed, value, _⟩ := named_outside .composite Composite.bare (fun _ => rfl)
            (fun _ => rfl) (fun _ => rfl) agrees held outside
          exact ⟨inner, none, rfl, value, joins.labels, joins.depth, ⟨kept, rfl, same⟩,
            joins.constraints, ⟨answer.2, rfl, renamed.trans same'⟩⟩
        | none =>
          rw [outside] at named
          cases named
          exact ⟨inner, none, rfl, rfl, joins⟩

theorem declare {m : Moment} (joins : m.env.Joins outer inner) {first : Nat} {v v' : Value}
    (trusts : m.Trusts first v) {policy : LabelPolicy} {name : String}
    (declared : m.env.declare policy name v = .ok (env', v')) :
    ∃ inner', inner.declare policy name v = .ok (inner', v') ∧ env'.Joins outer inner' := by
  obtain ⟨unlabelled, rfl, rfl⟩ | ⟨id, env₁, found, unlabelled, named, rfl, rfl⟩ :=
    declare_cases declared
  · refine ⟨inner.define name v', by rw [Environment.declare, unlabelled], ?_⟩
    exact joins.relabelled (define_sameEntities _ _ _) (define_sameEntities _ _ _)
      (congrArg (NameMap.insert · name v') joins.labels) joins.depth
  · have own := entityId?_of_unlabelled? unlabelled
    have agrees := (trusts v .itself id own).2
    obtain ⟨inner₁, found', named', same, joins₁⟩ := joins.relabel agrees named
    refine ⟨inner₁.define name (found.getD (v.withLabel name)), ?_, ?_⟩
    · rw [Environment.declare, unlabelled]
      simp only [named', bind, Except.bind, pure, Except.pure, same]
    · exact joins₁.relabelled (define_sameEntities _ _ _) (define_sameEntities _ _ _)
        (congrArg (NameMap.insert · name _) joins₁.labels) joins₁.depth

/-- Both blocks go on to their inner blocks alike. -/
theorem cleared_eq (joins : env.Joins outer inner) : inner.cleared = env.cleared := by
  rw [Environment.cleared, Environment.cleared, joins.labels, joins.depth]

theorem prepare (joins : env.Joins outer inner) {c : Closure Value} {name : String}
    {args : List Value} {limit : Nat} (entered : c.prepare name args limit env = .ok env') :
    ∃ inner', c.prepare name args limit inner = .ok inner' ∧ env'.Joins outer inner' := by
  have same := prepare_sameEntities entered
  obtain ⟨long, deep, rfl⟩ := prepare_ok_iff.mp entered
  rw [joins.depth] at deep
  refine ⟨_, prepare_ok_iff.mpr ⟨long, deep, rfl⟩, joins.relabelled same ⟨rfl, rfl, rfl⟩ ?_ ?_⟩
  · simp only [joins.labels]
  · simp only [joins.depth]

/-- Both callers go on with what the call has left. -/
theorem returned (joins : env.Joins outer inner) (inside : env'.Joins outer inner') :
    (env.withEntitiesOf env').Joins outer (inner.withEntitiesOf inner') :=
  inside.relabelled (withEntitiesOf_sameEntities _ _) (withEntitiesOf_sameEntities _ _)
    joins.labels joins.depth

end Joins

end Environment

theorem leaf?_congr {env env' : Environment} (same : env.labels = env'.labels) (node : Node) :
    node.leaf? env = node.leaf? env' := by
  cases node with
  | symbol name => simp only [Node.leaf?, Environment.get?, same]
  | _ => rfl

theorem callee_congr {env env' : Environment} (same : env.labels = env'.labels) (name : String) :
    env.callee name = env'.callee name := by
  simp only [Environment.callee, Environment.get?, same]

section Isolated

variable {settings : Settings} {first : Nat} {outer inner : Environment}

/-- What succeeds in a block succeeds in the part of it that was added to `outer`, with the same
values and counts. -/
theorem Derived.isolated {job : Job} {m m' : Moment} {vs : List Value}
    (derived : Derived settings job m vs m') (left : m'.run.nextId ≤ first + UInt64.size)
    (admitted : m.Admits first job) (joins : m.env.Joins outer inner) :
    ∃ inner', Derived settings job ⟨inner, m.run⟩ vs ⟨inner', m'.run⟩ ∧
      m'.env.Joins outer inner' := by
  have part {job job' : Job} {m m' : Moment} (spawned : Spawns settings job m job' m') :
      m.Admits first job → m'.Admits first job' := spawned.admits
  induction derived generalizing inner with
  | leaf ready value =>
    rw [leaf?_congr joins.labels] at value
    exact ⟨inner, .leaf ready value, joins⟩
  | function ready =>
    rw [joins.labels]
    exact ⟨inner, .function ready, joins⟩
  | vector ready one two point ih₁ ih₂ =>
    obtain ⟨inner₁, one', joins₁⟩ := ih₁ (Nat.le_trans two.grows.counts left)
      (part (.abscissa ready) admitted) joins
    obtain ⟨inner₂, two', joins₂⟩ := ih₂ left (part (.ordinate ready one) admitted) joins₁
    exact ⟨inner₂, .vector ready one' two' point, joins₂⟩
  | body ready known one two fits ih₁ ih₂ =>
    have left₂ := Nat.le_trans (Nat.le_succ _) left
    obtain ⟨inner₁, one', joins₁⟩ := ih₁ (Nat.le_trans two.grows.counts left₂)
      (part (.arguments ready known) admitted) joins
    obtain ⟨inner₂, two', joins₂⟩ := ih₂ left₂ (part (.properties ready known one) admitted) joins₁
    exact ⟨_, (Derived.body (m := ⟨inner, _⟩) ready known one' two' fits :), joins₂.withBody _⟩
  | constraint ready one source two target three ih₁ ih₂ ih₃ =>
    have left₃ := Nat.le_trans (Nat.le_succ _) left
    have left₂ := Nat.le_trans three.grows.counts left₃
    obtain ⟨inner₁, one', joins₁⟩ := ih₁ (Nat.le_trans two.grows.counts left₂)
      (part (.source ready) admitted) joins
    obtain ⟨inner₂, two', joins₂⟩ := ih₂ left₂ (part (.target ready one source) admitted) joins₁
    obtain ⟨inner₃, three', joins₃⟩ :=
      ih₃ left₃ (part (.attributes ready one source two target) admitted) joins₂
    exact ⟨_, (Derived.constraint (m := ⟨inner, _⟩) ready one' source two' target three' :),
      joins₃.withConstraint _⟩
  | composite ready parts ih =>
    obtain ⟨inner', parts', joins'⟩ := ih left (part (.statements ready) admitted) joins
    exact ⟨inner', .composite ready parts', joins'⟩
  | scope ready attributes placed inside ih₁ ih₂ =>
    have left₁ := Nat.le_trans (Nat.le_trans inside.grows.counts (Nat.le_succ _)) left
    obtain ⟨inner₁, attributes', joins₁⟩ := ih₁ left₁ (part (.placement ready) admitted) joins
    have begun := joins₁.cleared_eq
    rw [Moment.opened, ← begun] at inside
    exact ⟨_, .scope ready attributes' placed inside, joins₁.withComposite _⟩
  | label ready value declared ih =>
    have begun := part (.labelled ready) admitted
    obtain ⟨inner₁, value', joins₁⟩ := ih left begun joins
    obtain ⟨before, given⟩ := begun (Nat.le_trans value.grows.counts left)
    have trusts := (value.trusts left before given).2 _ List.mem_cons_self
    obtain ⟨inner₂, declared', joins₂⟩ := joins₁.declare trusts declared
    exact ⟨inner₂, (Derived.label (m := ⟨inner, _⟩) ready value' declared' :), joins₂⟩
  | call ready found arguments called ih₁ ih₂ =>
    obtain ⟨inner₁, arguments', joins₁⟩ := ih₁ (Nat.le_trans called.grows.counts left)
      (part (.passed ready found) admitted) joins
    obtain ⟨inner₂, called', joins₂⟩ :=
      ih₂ left (part (.called ready found arguments) admitted) joins₁
    rw [callee_congr joins.labels] at found
    exact ⟨inner₂, .call ready found arguments' called', joins₂⟩
  | nil => exact ⟨inner, .nil, joins⟩
  | cons head tail ih₁ ih₂ =>
    obtain ⟨inner₁, head', joins₁⟩ := ih₁ (Nat.le_trans tail.grows.counts left)
      (part .head admitted) joins
    obtain ⟨inner₂, tail', joins₂⟩ := ih₂ left (part (.tail head) admitted) joins₁
    exact ⟨inner₂, .cons head' tail', joins₂⟩
  | endName =>
    rw [Environment.get?, joins.labels]
    exact ⟨inner, .endName, joins⟩
  | endNode other value ih =>
    obtain ⟨inner', value', joins'⟩ := ih left (part (.endNode other) admitted) joins
    exact ⟨inner', .endNode other value', joins'⟩
  | closure entered result ih =>
    obtain ⟨inner₁, entered', joins₁⟩ := joins.prepare entered
    obtain ⟨inner₂, result', joins₂⟩ := ih left (part (.entered entered) admitted) joins₁
    exact ⟨_, (Derived.closure (m := ⟨inner, _⟩) entered' result' :), joins.returned joins₂⟩
  | operation does numbers => exact ⟨inner, .operation does numbers, joins⟩
  | halt => exact ⟨inner, .halt, joins⟩
  | «repeat» often swept ih =>
    obtain ⟨inner₁, swept', joins₁⟩ := ih left (part (.repeated often) admitted) joins
    exact ⟨_, (Derived.repeat often swept' :), joins.returned joins₁⟩
  | grid wide high swept ih =>
    obtain ⟨inner₁, swept', joins₁⟩ := ih left (part (.gridded wide high) admitted) joins
    exact ⟨_, (Derived.grid wide high swept' :), joins.returned joins₁⟩
  | swept => exact ⟨inner, .swept, joins⟩
  | cell head tail ih₁ ih₂ =>
    obtain ⟨inner₁, head', joins₁⟩ := ih₁ (Nat.le_trans tail.grows.counts left)
      (part .cell admitted) joins
    obtain ⟨inner₂, tail', joins₂⟩ := ih₂ left (part (.cells head) admitted) joins₁
    exact ⟨inner₂, .cell head' tail', joins₂⟩

end Isolated

/-- The composite of what the second block has beyond the first. -/
def Environment.beyond (env env' : Environment) (id : EntityId) : Composite Value where
  id := id
  label := none
  bodies := env'.bodies.drop env.bodies.length
  constraints := env'.constraints.drop env.constraints.length
  composites := env'.composites.drop env.composites.length
  transform := .identity
  props := ∅

/-- The first block, up to labels, is what the second one begins with. -/
structure Environment.Begins (env env' : Environment) : Prop where
  bodies : (env'.bodies.take env.bodies.length).map Body.bare = env.bodies.map Body.bare
  constraints : env'.constraints.take env.constraints.length = env.constraints
  composites : (env'.composites.take env.composites.length).map Composite.bare =
    env.composites.map Composite.bare

theorem Environment.Joins.begins {env outer inner : Environment} (joins : env.Joins outer inner) :
    outer.Begins env := by
  obtain ⟨kept, bodies, same⟩ := joins.bodies
  obtain ⟨kept', composites, same'⟩ := joins.composites
  have long : kept.length = outer.bodies.length := by simpa using congrArg List.length same
  have long' : kept'.length = outer.composites.length := by simpa using congrArg List.length same'
  refine ⟨?_, ?_, ?_⟩
  · rw [bodies, List.take_left' long, same]
  · rw [joins.constraints, List.take_left' rfl]
  · rw [composites, List.take_left' long', same']

/-- The inner block, closed off, is what the joint one has beyond the outer one. -/
theorem Environment.Joins.beyond_eq {env outer inner : Environment} (joins : env.Joins outer inner)
    (id : EntityId) : inner.toComposite id .identity ∅ = outer.beyond env id := by
  obtain ⟨kept, bodies, same⟩ := joins.bodies
  obtain ⟨kept', composites, same'⟩ := joins.composites
  have long : kept.length = outer.bodies.length := by simpa using congrArg List.length same
  have long' : kept'.length = outer.composites.length := by simpa using congrArg List.length same'
  rw [toComposite, beyond, bodies, joins.constraints, composites, List.drop_left' long,
    List.drop_left' rfl, List.drop_left' long']

/-- A block isolates statements without altering what they do: where the statements succeed, they
succeed in a block of their own, and the composite of this block is what they would have added
around it, in the same order and with the same numbers, labels and contents; around it nothing
changes but for the new composite.  What the statements add comes behind what was there, which may
have got labels.  The run is one that makes no more entities than there are numbers. -/
theorem scope_isolates {settings : Settings} {program : Node} {run run' : Run} {m : Moment}
    {statements : List Node} {env' : Environment} {v : Value}
    (reached : Reaches settings program run m)
    (ran : (Node.composite statements).eval settings m.env m.run = (.ok (env', v), run'))
    (left : run'.nextId ≤ run.nextId + UInt64.size) :
    (Node.scope (.composite statements) []).eval settings m.env m.run =
      (.ok
        ({ m.env with
            composites := m.env.composites ++ [m.env.beyond env' (.ofCount run'.nextId)] },
          .composite (m.env.beyond env' (.ofCount run'.nextId))),
        { run' with nextId := run'.nextId + 1 }) ∧
    m.env.Begins env' := by
  have derived : Derived settings (.node (.composite statements)) m [v] ⟨env', run'⟩ :=
    derived_iff_eval.mpr ran
  have admitted : m.Admits run.nextId (.node (.composite statements)) :=
    fun left => ⟨reached.coherent left, List.forall_mem_nil _⟩
  obtain ⟨inner, inside, joins⟩ := derived.isolated left admitted (.cleared m.env)
  have ready : m.run.interrupted = false := by cases derived <;> assumption
  have placed : Transform.split (attrValues [] []) = .ok (.identity, ∅) := rfl
  have closed := derived_iff_eval.mp (Derived.scope (m := m) ready .nil placed inside)
  rw [← joins.beyond_eq]
  exact ⟨closed, joins.begins⟩

/-- Statements that name a circle from outside and make another one. -/
def namedAndMade : List Node :=
  [.label "a" (.symbol "x"), .label "b" (.body "circle" [.number 9, .number 0, .number 5] [])]

/-- A function with these statements is given a circle of its caller. -/
def circlePassed : Node :=
  .composite [
    .label "f" (.function ["x"] (.composite namedAndMade)),
    .call "f" [.body "circle" [.number 0, .number 0, .number 5] []]]

/-- The moment at which the function begins: the circle has no label yet. -/
def functionBegun : Moment :=
  let circle : Body Value :=
    ⟨1, .circle, ⟨[("x", .number 0), ("y", .number 0), ("radius", .number 5)]⟩, ∅, none⟩
  let f : Closure Value := ⟨0, ["x"], .composite namedAndMade, ∅⟩
  ⟨{ labels := ⟨[("f", .closure f), ("x", .body circle)]⟩, bodies := [circle], depth := 1 },
    ⟨2, 1, false⟩⟩

theorem functionBegun_reached : Reaches {} circlePassed {} functionBegun := by
  let circle : Node := .body "circle" [.number 0, .number 0, .number 5] []
  let definition : Node := .label "f" (.function ["x"] (.composite namedAndMade))
  let f : Value := .closure ⟨0, ["x"], .composite namedAndMade, ∅⟩
  let defined : Moment := ⟨{ labels := ⟨[("f", f)]⟩ }, ⟨1, 1, false⟩⟩
  let made : Moment := ⟨{ defined.env with bodies := functionBegun.env.bodies }, ⟨2, 1, false⟩⟩
  have first : Derived {} (.node definition) ⟨.empty, {}⟩ [f] defined := derived_iff_eval.mpr rfl
  have second : Derived {} (.node circle) defined (made.env.bodies.map .body) made :=
    derived_iff_eval.mpr rfl
  have statements : Visits {} (.node circlePassed) ⟨.empty, {}⟩
      (.nodes [definition, .call "f" [circle]]) ⟨.empty, {}⟩ := .part .here (.statements rfl)
  have called := ((statements.part (.tail first)).part .head).part
    (.called rfl rfl (.cons second .nil))
  exact .begins (called.part (.entered rfl))

/-- Around the circle that it is given, the function's body labels it; in a block it does not, and
the block holds the new circle only. -/
theorem namedAndMade_isolated :
    Reaches {} circlePassed {} functionBegun ∧ ∃ env' v run',
      (Node.composite namedAndMade).eval {} functionBegun.env functionBegun.run =
        (.ok (env', v), run') ∧
      run'.nextId ≤ ({} : Run).nextId + UInt64.size ∧
      env'.bodies.map Body.label = [some "a", some "b"] ∧
      (functionBegun.env.beyond env' (.ofCount run'.nextId)).bodies.map Body.label = [some "b"] ∧
      (Node.scope (.composite namedAndMade) []).eval {} functionBegun.env functionBegun.run =
        (.ok ({ functionBegun.env with
            composites := [functionBegun.env.beyond env' (.ofCount run'.nextId)] },
          .composite (functionBegun.env.beyond env' (.ofCount run'.nextId))),
          { run' with nextId := run'.nextId + 1 }) := by
  have left : 3 ≤ ({} : Run).nextId + UInt64.size := by decide
  have ran : (Node.composite namedAndMade).eval {} functionBegun.env functionBegun.run =
      (.ok (_, _), _) := rfl
  have isolated := scope_isolates functionBegun_reached ran left
  exact ⟨functionBegun_reached, _, _, _, ran, left, rfl, rfl, isolated.1⟩

end RigidScene
