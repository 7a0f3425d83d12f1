import RigidScene.Proofs.Eval.Derivation

/-!
What derivations say is what the evaluator does.

`Job.Answers` puts a job in terms of the evaluator, given how the bodies of functions are run.
`Derived.answers` follows a derivation rule by rule and carries the evaluator out along it.
-/

namespace RigidScene

open Eval Outcome

-- The equations of the evaluator, one for every construct.
attribute [simp] Node.step Node.stepArgs

/-- The value of an end of a constraint: a bare name is looked up, anything else is run. -/
def Endpoint.valueOf (node : Node) (run : Step) : Step := fun env =>
  match node with
  | .symbol name => return (env, (env.get? name).getD (.string name))
  | _ => run env

theorem ofNode_eq (node : Node) (run : Step) (env : Environment) :
    Endpoint.ofNode node run env = (do
      let (env, v) ← Endpoint.valueOf node run env
      return (env, ← Endpoint.ofValue v)) := by
  cases node with
  | symbol name =>
    simp only [Endpoint.ofNode, Endpoint.valueOf, pure_bind]
    cases env.get? name with
    | none => rfl
    | some v => rfl
  | _ => rfl

theorem stepAll_eq (settings : Settings) (enter : Node → Step) (statements : List Node)
    (last : Value) (env : Environment) :
    Node.stepAll settings enter statements last env = (do
      let (env, vs) ← Node.stepArgs settings enter statements env
      return (env, vs.getLastD last)) := by
  induction statements generalizing last env with
  | nil => simp [Node.stepAll, Node.stepArgs]
  | cons node rest ih =>
    simp only [Node.stepAll, Node.stepArgs, ih, bind_assoc, pure_bind, List.getLastD_cons]

theorem stepAttrs_eq (settings : Settings) (enter : Node → Step) (attrs : List (String × Node))
    (done : NameMap Value) (env : Environment) :
    Node.stepAttrs settings enter attrs done env = (do
      let (env, vs) ← Node.stepArgs settings enter (attrs.map Prod.snd) env
      return (env, done.insertAll ((attrs.map Prod.fst).zip vs))) := by
  induction attrs generalizing done env with
  | nil => simp [Node.stepAttrs, Node.stepArgs, NameMap.insertAll]
  | cons attr rest ih =>
    simp only [Node.stepAttrs, List.map_cons, Node.stepArgs, ih, bind_assoc, pure_bind]
    rfl

/-- What the evaluator says of a job. -/
def Job.Answers (settings : Settings) (enter : Node → Step) :
    Job → Moment → List Value → Moment → Prop
  | .node n, m, vs, m' =>
    ∃ v, vs = [v] ∧ n.step settings enter m.env m.run = (.ok (m'.env, v), m'.run)
  | .nodes ns, m, vs, m' =>
    Node.stepArgs settings enter ns m.env m.run = (.ok (m'.env, vs), m'.run)
  | .endpoint n, m, vs, m' =>
    ∃ v, vs = [v] ∧
      Endpoint.valueOf n (n.step settings enter) m.env m.run = (.ok (m'.env, v), m'.run)
  | .call name f args, m, vs, m' =>
    ∃ v, vs = [v] ∧ Caller.fromProgram enter settings.maxCallDepth name f args m.env m.run =
      (.ok (m'.env, v), m'.run)
  | .sweep name f cells last, m, vs, m' =>
    ∃ v, vs = [v] ∧
      Builtin.sweep (Caller.fromProgram enter settings.maxCallDepth) name f cells last m.env m.run =
        (.ok (m'.env, v), m'.run)

theorem prepare_ok_iff {c : Closure Value} {name : String} {args : List Value} {limit : Nat}
    {env inner : Environment} :
    c.prepare name args limit env = .ok inner ↔
      c.params.length = args.length ∧ env.depth < limit ∧
        inner = { env with
          labels := (env.labels.withFallback c.captured).insertAll (c.params.zip args)
          depth := env.depth + 1 } := by
  unfold Closure.prepare Environment.bindParams Environment.enterCall
  by_cases long : c.params.length = args.length
  · by_cases deep : env.depth < limit
    · simp only [long, if_true, bind, Except.bind, Environment.withFallback, deep, true_and]
      exact ⟨fun h => (Except.ok.inj h).symm, fun h => congrArg Except.ok h.symm⟩
    · simp [long, bind, Except.bind, Environment.withFallback, deep]
  · simp [long, bind, Except.bind]

/-- What a name is bound to inside a function has been bound outside or captured, or is an argument.
-/
theorem prepare_labels {c : Closure Value} {name : String} {args : List Value} {limit : Nat}
    {env inner : Environment} (h : c.prepare name args limit env = .ok inner)
    {e : String × Value} (held : e ∈ inner.labels.entries) :
    e ∈ env.labels.entries ∨ e ∈ c.captured.entries ∨ e.2 ∈ args := by
  obtain ⟨_, _, rfl⟩ := prepare_ok_iff.mp h
  rcases NameMap.mem_insertAll held with outside | argument
  · exact (NameMap.mem_withFallback outside).imp_right .inl
  · exact .inr (.inr (List.of_mem_zip argument).2)

/-- A call that can begin leaves room for its body, and less room inside. -/
theorem prepare_room {settings : Settings} {c : Closure Value} {name : String} {args : List Value}
    {env inner : Environment} (h : c.prepare name args settings.maxCallDepth env = .ok inner) :
    settings.room env = settings.room inner + 1 := by
  obtain ⟨_, deep, rfl⟩ := prepare_ok_iff.mp h
  simp only [Settings.room]
  omega

section Answers

variable {settings : Settings} {enter : Node → Step} {m m' : Moment} {v : Value}

theorem answers_node {node : Node} : (Job.node node).Answers settings enter m [v] m' ↔
    node.step settings enter m.env m.run = (.ok (m'.env, v), m'.run) := by
  simp [Job.Answers]

theorem answers_endpoint {node : Node} : (Job.endpoint node).Answers settings enter m [v] m' ↔
    Endpoint.valueOf node (node.step settings enter) m.env m.run =
      (.ok (m'.env, v), m'.run) := by
  simp [Job.Answers]

theorem answers_call {name : String} {f : Value} {args : List Value} :
    (Job.call name f args).Answers settings enter m [v] m' ↔
      Caller.fromProgram enter settings.maxCallDepth name f args m.env m.run =
        (.ok (m'.env, v), m'.run) := by
  simp [Job.Answers]

theorem answers_sweep {name : String} {f last : Value} {cells : List (List Nat)} :
    (Job.sweep name f cells last).Answers settings enter m [v] m' ↔
      Builtin.sweep (Caller.fromProgram enter settings.maxCallDepth) name f cells last
        m.env m.run = (.ok (m'.env, v), m'.run) := by
  simp [Job.Answers]

end Answers

/-- The operations on numbers leave everything as it is. -/
theorem run_operation {call : Caller} {b : Builtin} {f : List Float → Float}
    (does : b.operation? = some f) (args : List Value) (env : Environment) :
    b.run call args env = (do
      let xs ← b.numbersFrom 1 args
      return (env, .number (f xs))) := by
  cases b <;> cases does <;> rfl

/-- What a derivation says is what the evaluator does. -/
theorem Derived.answers {settings : Settings} {job : Job} {m m' : Moment} {vs : List Value}
    (derived : Derived settings job m vs m') :
    job.Answers settings (settings.enter (settings.room m.env)) m vs m' := by
  induction derived with
  | @leaf node m v ready value =>
    rw [answers_node]
    cases node <;> simp only [Node.leaf?, reduceCtorEq, Option.some.injEq] at value <;>
      simp only [Node.step, bind_of_ok (checkInterrupt_of_ready ready), value] <;> rfl
  | function ready =>
    rw [answers_node]
    simp only [Node.step, bind_of_ok (checkInterrupt_of_ready ready)]
    rfl
  | vector ready first second point ih₁ ih₂ =>
    rw [first.room_eq] at ih₂
    rw [answers_node] at ih₁ ih₂ ⊢
    simp only [Node.step, bind_of_ok (checkInterrupt_of_ready ready), bind_of_ok ih₁,
      bind_of_ok ih₂, bind_of_ok (lift_of_ok point)]
    rfl
  | body ready known arguments attributes fits ih₁ ih₂ =>
    rw [arguments.room_eq] at ih₂
    rw [answers_node]
    simp only [Node.step, bind_of_ok (checkInterrupt_of_ready ready), known, stepAttrs_eq,
      bind_assoc, pure_bind, bind_of_ok ih₁, bind_of_ok ih₂, bind_of_ok (lift_of_ok fits)]
    rfl
  | constraint ready first source second target attributes ih₁ ih₂ ih₃ =>
    rw [second.room_eq, first.room_eq] at ih₃
    rw [first.room_eq] at ih₂
    rw [answers_endpoint] at ih₁ ih₂
    rw [answers_node]
    simp only [Node.step, bind_of_ok (checkInterrupt_of_ready ready), ofNode_eq, stepAttrs_eq,
      bind_assoc, pure_bind, bind_of_ok ih₁, bind_of_ok ih₂, bind_of_ok ih₃,
      bind_of_ok (lift_of_ok source), bind_of_ok (lift_of_ok target)]
    rfl
  | composite ready parts ih =>
    rw [answers_node]
    simp only [Node.step, bind_of_ok (checkInterrupt_of_ready ready), stepAll_eq, bind_of_ok ih]
    rfl
  | scope ready attributes placed inside ih₁ ih₂ =>
    have same : settings.room (Moment.opened _).env = settings.room _ := attributes.room_eq
    rw [same, answers_node] at ih₂
    rw [answers_node]
    rw [attrValues] at placed
    simp only [Node.step, bind_of_ok (checkInterrupt_of_ready ready), stepAttrs_eq,
      bind_assoc, pure_bind, bind_of_ok ih₁, bind_of_ok (lift_of_ok placed)]
    refine (bind_of_ok ih₂).trans ?_
    rfl
  | label ready value declared ih =>
    rw [answers_node] at ih ⊢
    simp only [Node.step, bind_of_ok (checkInterrupt_of_ready ready), bind_of_ok ih]
    exact lift_of_ok declared
  | call ready found arguments called ih₁ ih₂ =>
    rw [arguments.room_eq, answers_call] at ih₂
    rw [answers_node]
    simp only [Node.step, bind_of_ok (checkInterrupt_of_ready ready),
      bind_of_ok (lift_of_ok found), bind_of_ok ih₁]
    exact ih₂
  | nil => rfl
  | cons head tail ih₁ ih₂ =>
    rw [head.room_eq] at ih₂
    rw [answers_node] at ih₁
    simp only [Job.Answers, Node.stepArgs, bind_of_ok ih₁] at ih₂ ⊢
    exact (bind_of_ok ih₂).trans rfl
  | endName => exact answers_endpoint.mpr rfl
  | @endNode node m v m' other value ih =>
    rw [answers_node] at ih
    rw [answers_endpoint]
    cases node with
    | symbol name => exact absurd rfl (other name)
    | _ => exact ih
  | closure entered result ih =>
    rw [answers_node] at ih
    rw [answers_call, prepare_room entered]
    refine (bind_of_ok (lift_of_ok entered)).trans ?_
    exact (bind_of_ok ih).trans rfl
  | @operation name b f args xs m does numbers =>
    rw [answers_call]
    have counted : b.arity? = none := by cases b <;> first | rfl | cases does
    simp only [Caller.fromProgram, Caller.callWith, Builtin.call, counted, run_operation does,
      bind_assoc, pure_bind, bind_of_ok (lift_of_ok numbers)]
    rfl
  | halt => exact answers_call.mpr rfl
  | «repeat» often swept ih =>
    rw [answers_sweep] at ih
    rw [answers_call, Caller.fromProgram_knot]
    simp only [Caller.callWith, Builtin.call, Builtin.arity?, List.length_cons, List.length_nil,
      Builtin.run, Builtin.runRepeat_eq, bind_assoc]
    simp only [Nat.reduceAdd, ne_eq, not_true_eq_false, if_false,
      bind_of_ok (lift_of_ok often)]
    exact (bind_of_ok ih).trans rfl
  | grid wide high swept ih =>
    rw [answers_sweep] at ih
    rw [answers_call, Caller.fromProgram_knot]
    simp only [Caller.callWith, Builtin.call, Builtin.arity?, List.length_cons, List.length_nil,
      Builtin.run, Builtin.runGrid_eq, bind_assoc]
    simp only [Nat.reduceAdd, ne_eq, not_true_eq_false, if_false,
      bind_of_ok (lift_of_ok wide), bind_of_ok (lift_of_ok high)]
    exact (bind_of_ok ih).trans rfl
  | swept => exact answers_sweep.mpr rfl
  | cell head tail ih₁ ih₂ =>
    rw [head.room_eq, answers_sweep] at ih₂
    rw [answers_call] at ih₁
    rw [answers_sweep]
    simp only [Builtin.sweep, bind_of_ok ih₁]
    exact ih₂

/-- A job can succeed in one way only. -/
theorem Derived.unique {settings : Settings} {job : Job} {m m₁ m₂ : Moment} {vs ws : List Value}
    (one : Derived settings job m vs m₁) (two : Derived settings job m ws m₂) :
    vs = ws ∧ m₁ = m₂ := by
  have first := one.answers
  have second := two.answers
  obtain ⟨env₁, run₁⟩ := m₁
  obtain ⟨env₂, run₂⟩ := m₂
  cases job with
  | nodes =>
    cases first.symm.trans second
    exact ⟨rfl, rfl⟩
  | node | endpoint | call | sweep =>
    obtain ⟨v, rfl, first⟩ := first
    obtain ⟨w, rfl, second⟩ := second
    cases first.symm.trans second
    exact ⟨rfl, rfl⟩

end RigidScene
