import RigidScene.Proofs.Eval.Adequacy

/-!
The evaluator solves its own recursion, and nothing else does.

`Settings.enter` counts down the calls that may still be nested.  A call is refused before the count
runs out, so the count decides nothing: the evaluator runs the bodies of functions by itself,
`eval_recursion`.  A body is run one call deeper than its caller, and no call begins at the limit;
so the recursion comes to an end from every expression in every environment, and what runs itself in
this way can only be the evaluator, `solves_iff_eval`.
-/

namespace RigidScene

open Eval Outcome

/-- The two actions do the same in every run, and where they succeed the environment is as deep in
calls as is said. -/
structure Level {α : Type} (depth : Nat) (x y : Eval (Environment × α)) : Prop where
  same : ∀ run, x run = y run
  kept : ∀ {run env a run'}, x run = (.ok (env, a), run') → env.depth = depth

/-- From environments of this depth the two steps do the same and stay at the depth. -/
def Agree (depth : Nat) (s t : Step) : Prop :=
  ∀ env, env.depth = depth → Level depth (s env) (t env)

namespace Level

variable {α β γ : Type} {depth inner : Nat}

theorem pure (env : Environment) (a : α) (deep : env.depth = depth) :
    Level depth (pure (env, a)) (pure (env, a)) where
  same _ := rfl
  kept h := by
    obtain ⟨same, _⟩ := pure_ok_iff.mp h
    cases same
    exact deep

theorem throw (e : EvalError) :
    Level depth (MonadExcept.throw e : Eval (Environment × α)) (MonadExcept.throw e) where
  same _ := rfl
  kept h := (throw_ok_iff.mp h).elim

theorem lift {x : Except EvalError (Environment × α)}
    (deep : ∀ env a, x = .ok (env, a) → env.depth = depth) : Level depth (liftM x) (liftM x) where
  same _ := rfl
  kept h := deep _ _ (lift_ok_iff.mp h).1

theorem bind {x y : Eval (Environment × α)} {h k : Environment × α → Eval (Environment × β)}
    (first : Level inner x y)
    (rest : ∀ env a, env.depth = inner → Level depth (h (env, a)) (k (env, a))) :
    Level depth (x >>= h) (y >>= k) where
  same run := by
    cases ran : x run with
    | mk answer mid =>
      have ran' := (first.same run).symm.trans ran
      cases answer with
      | error e => rw [bind_of_error ran, bind_of_error ran']
      | ok answer =>
        obtain ⟨env, a⟩ := answer
        rw [bind_of_ok ran, bind_of_ok ran']
        exact (rest env a (first.kept ran)).same mid
  kept ran := by
    obtain ⟨⟨env, a⟩, mid, before, behind⟩ := bind_ok_iff.mp ran
    exact (rest env a (first.kept before)).kept behind

/-- Behind an action that both have in common. -/
theorem after {x : Eval γ} {h k : γ → Eval (Environment × α)}
    (rest : ∀ c run run', x run = (.ok c, run') → Level depth (h c) (k c)) :
    Level depth (x >>= h) (x >>= k) where
  same run := by
    cases ran : x run with
    | mk answer mid =>
      cases answer with
      | error e => rw [bind_of_error ran, bind_of_error ran]
      | ok c =>
        rw [bind_of_ok ran, bind_of_ok ran]
        exact (rest c run mid ran).same mid
  kept ran := by
    obtain ⟨c, mid, before, behind⟩ := bind_ok_iff.mp ran
    exact (rest c _ mid before).kept behind

end Level

section Calls

variable {depth limit : Nat} {enter enter' : Node → Step} {call call' : Caller}

theorem closure_agree
    (bodies : ∀ node, depth < limit → Agree (depth + 1) (enter node) (enter' node)) (name : String)
    (c : Closure Value) (args : List Value) :
    Agree depth (c.call enter limit name args) (c.call enter' limit name args) := by
  intro env deep
  apply Level.after
  intro inner run run' prepared
  obtain ⟨_, room, rfl⟩ := prepare_ok_iff.mp (lift_ok_iff.mp prepared).1
  apply (bodies c.body (deep ▸ room) _ (congrArg (· + 1) deep)).bind
  intro inner v _
  exact .pure _ _ deep

theorem sweep_agree (calls : ∀ name f args, Agree depth (call name f args) (call' name f args))
    (name : String) (f : Value) (cells : List (List Nat)) (last : Value) :
    Agree depth (Builtin.sweep call name f cells last) (Builtin.sweep call' name f cells last) := by
  induction cells generalizing last with
  | nil => exact fun env deep => .pure _ _ deep
  | cons cell cells ih =>
    intro env deep
    apply (calls name f _ env deep).bind
    intro env v deep
    exact ih v env deep

theorem run_agree (calls : ∀ name f args, Agree depth (call name f args) (call' name f args))
    (b : Builtin) (args : List Value) : Agree depth (b.run call args) (b.run call' args) := by
  intro env deep
  cases b with
  | add | subtract | multiply | divide =>
    apply Level.after
    intro xs _ _ _
    exact .pure _ _ deep
  | «repeat» =>
    rcases args with _ | ⟨n, _ | ⟨f, _ | ⟨_, _⟩⟩⟩
    case cons.cons.nil =>
      simp only [Builtin.run, Builtin.runRepeat_eq]
      apply Level.after
      intro n _ _ _
      exact sweep_agree calls "repeat" f _ _ env deep
    all_goals exact .throw _
  | grid =>
    rcases args with _ | ⟨nx, _ | ⟨ny, _ | ⟨f, _ | ⟨_, _⟩⟩⟩⟩
    case cons.cons.cons.nil =>
      simp only [Builtin.run, Builtin.runGrid_eq]
      apply Level.after
      intro nx _ _ _
      apply Level.after
      intro ny _ _ _
      exact sweep_agree calls "grid" f _ _ env deep
    all_goals exact .throw _
  | halt =>
    apply Level.after
    intro _ _ _ _
    exact .pure _ _ deep

theorem callWith_agree
    (bodies : ∀ node, depth < limit → Agree (depth + 1) (enter node) (enter' node))
    (calls : ∀ name f args, Agree depth (call name f args) (call' name f args)) (name : String)
    (f : Value) (args : List Value) :
    Agree depth (Caller.callWith enter limit call name f args)
      (Caller.callWith enter' limit call' name f args) := by
  cases f with
  | closure c => exact closure_agree bodies name c args
  | builtin b =>
    intro env deep
    have ran : Level depth
        (b.run call args env >>= fun answer => pure (env.withEntitiesOf answer.1, answer.2))
        (b.run call' args env >>= fun answer => pure (env.withEntitiesOf answer.1, answer.2)) := by
      apply (run_agree calls b args env deep).bind
      intro inner v _
      exact .pure _ _ deep
    simp only [Caller.callWith, Builtin.call]
    cases b.arity? with
    | none => exact ran
    | some n =>
      by_cases count : args.length ≠ n
      · simp only [if_pos count]
        exact .throw _
      · simp only [if_neg count]
        exact ran
  | _ => exact fun _ _ => .throw _

/-- Calls from a program do the same if the bodies of functions do so one call deeper. -/
theorem fromProgram_agree
    (bodies : ∀ node, depth < limit → Agree (depth + 1) (enter node) (enter' node)) (name : String)
    (f : Value) (args : List Value) :
    Agree depth (Caller.fromProgram enter limit name f args)
      (Caller.fromProgram enter' limit name f args) := by
  have refused (name : String) (f : Value) (args : List Value) :
      Agree depth (Caller.refuse name f args) (Caller.refuse name f args) :=
    fun _ _ => .throw _
  exact callWith_agree bodies (callWith_agree bodies refused) name f args

end Calls

section Constructs

variable {settings : Settings} {depth : Nat} {enter enter' : Node → Step}

/-- The expression does the same at this depth however the bodies of functions are run. -/
def Node.Agrees (settings : Settings) (depth : Nat) (enter enter' : Node → Step) (node : Node) :
    Prop :=
  Agree depth (node.step settings enter) (node.step settings enter')

theorem nodes_agree {nodes : List Node}
    (parts : ∀ node ∈ nodes, node.Agrees settings depth enter enter') (env : Environment)
    (deep : env.depth = depth) :
    Level depth (Node.stepArgs settings enter nodes env)
      (Node.stepArgs settings enter' nodes env) := by
  induction nodes generalizing env with
  | nil => exact .pure _ _ deep
  | cons node nodes ih =>
    obtain ⟨here, later⟩ := List.forall_mem_cons.mp parts
    apply (here env deep).bind
    intro env v deep
    apply (ih later env deep).bind
    intro env vs deep
    exact .pure _ _ deep

theorem attrs_agree {attrs : List (String × Node)}
    (parts : ∀ node ∈ attrs.map Prod.snd, node.Agrees settings depth enter enter')
    (env : Environment) (deep : env.depth = depth) :
    Level depth (Node.stepAttrs settings enter attrs ∅ env)
      (Node.stepAttrs settings enter' attrs ∅ env) := by
  rw [stepAttrs_eq, stepAttrs_eq]
  apply (nodes_agree parts env deep).bind
  intro env vs deep
  exact .pure _ _ deep

theorem endpoint_agrees {node : Node} (part : node.Agrees settings depth enter enter')
    (env : Environment) (deep : env.depth = depth) :
    Level depth (Endpoint.ofNode node (node.step settings enter) env)
      (Endpoint.ofNode node (node.step settings enter') env) := by
  rw [ofNode_eq, ofNode_eq]
  have value : Level depth (Endpoint.valueOf node (node.step settings enter) env)
      (Endpoint.valueOf node (node.step settings enter') env) := by
    cases node with
    | symbol name => exact .pure _ _ deep
    | _ => exact part env deep
  apply value.bind
  intro env v deep
  apply Level.after
  intro e _ _ _
  exact .pure _ _ deep

theorem vector_agrees {x y : Node} (first : x.Agrees settings depth enter enter')
    (second : y.Agrees settings depth enter enter') :
    (Node.vector x y).Agrees settings depth enter enter' := by
  intro env deep
  rw [Node.step, Node.step]
  apply Level.after
  intro _ _ _ _
  apply (first env deep).bind
  intro env vx deep
  apply (second env deep).bind
  intro env vy deep
  apply Level.after
  intro p _ _ _
  exact .pure _ _ deep

theorem composite_agrees {statements : List Node}
    (parts : ∀ node ∈ statements, node.Agrees settings depth enter enter') :
    (Node.composite statements).Agrees settings depth enter enter' := by
  intro env deep
  rw [Node.step, Node.step, stepAll_eq, stepAll_eq]
  apply Level.after
  intro _ _ _ _
  apply (nodes_agree parts env deep).bind
  intro env vs deep
  exact .pure _ _ deep

theorem label_agrees {name : String} {value : Node}
    (part : value.Agrees settings depth enter enter') :
    (Node.label name value).Agrees settings depth enter enter' := by
  intro env deep
  rw [Node.step, Node.step]
  apply Level.after
  intro _ _ _ _
  apply (part env deep).bind
  intro env v deep
  apply Level.lift
  intro env' v' declared
  exact (declare_depth declared).trans deep

theorem call_agrees {callee : String} {args : List Node}
    (bodies : ∀ node, depth < settings.maxCallDepth → Agree (depth + 1) (enter node) (enter' node))
    (parts : ∀ node ∈ args, node.Agrees settings depth enter enter') :
    (Node.call callee args).Agrees settings depth enter enter' := by
  intro env deep
  rw [Node.step, Node.step]
  apply Level.after
  intro _ _ _ _
  apply Level.after
  intro f _ _ _
  apply (nodes_agree parts env deep).bind
  intro env vs deep
  exact fromProgram_agree bodies callee f vs env deep

theorem body_agrees {name : String} {args : List Node} {attrs : List (String × Node)}
    (parts : ∀ node ∈ args, node.Agrees settings depth enter enter')
    (properties : ∀ node ∈ attrs.map Prod.snd, node.Agrees settings depth enter enter') :
    (Node.body name args attrs).Agrees settings depth enter enter' := by
  intro env deep
  rw [Node.step, Node.step]
  apply Level.after
  intro _ _ _ _
  cases Shape.ofName? name with
  | none => exact .throw _
  | some shape =>
    apply (nodes_agree parts env deep).bind
    intro env vs deep
    apply (attrs_agree properties env deep).bind
    intro env props deep
    apply Level.after
    intro params _ _ _
    apply Level.after
    intro id_ _ _ _
    apply Level.after
    intro env' _ _ added
    cases (addBody_new env settings.labelPolicy _ rfl).symm.trans (lift_ok_iff.mp added).1
    exact .pure _ _ deep

theorem constraint_agrees {source target : Node} {kind : EdgeKind} {attrs : List (String × Node)}
    (first : source.Agrees settings depth enter enter')
    (second : target.Agrees settings depth enter enter')
    (properties : ∀ node ∈ attrs.map Prod.snd, node.Agrees settings depth enter enter') :
    (Node.constraint source kind target attrs).Agrees settings depth enter enter' := by
  intro env deep
  rw [Node.step, Node.step]
  apply Level.after
  intro _ _ _ _
  apply (endpoint_agrees first env deep).bind
  intro env s deep
  apply (endpoint_agrees second env deep).bind
  intro env t deep
  apply (attrs_agree properties env deep).bind
  intro env props deep
  apply Level.after
  intro id_ _ _ _
  exact .pure _ _ deep

theorem scope_agrees {block : Node} {attrs : List (String × Node)}
    (part : block.Agrees settings depth enter enter')
    (properties : ∀ node ∈ attrs.map Prod.snd, node.Agrees settings depth enter enter') :
    (Node.scope block attrs).Agrees settings depth enter enter' := by
  intro env deep
  rw [Node.step, Node.step]
  apply Level.after
  intro _ _ _ _
  apply (attrs_agree properties env deep).bind
  intro env props deep
  apply Level.after
  intro (transform, props) _ _ _
  apply (part env.cleared deep).bind
  intro inner v _
  apply Level.after
  intro id_ _ _ _
  apply Level.after
  intro env' _ _ added
  cases (addComposite_new env settings.labelPolicy _ rfl).symm.trans (lift_ok_iff.mp added).1
  exact .pure _ _ deep

end Constructs

mutual

/-- An expression does the same, however the bodies of functions are run, if those do the same one
call deeper; at the limit it does the same anyway. -/
theorem node_agrees {settings : Settings} {depth : Nat} {enter enter' : Node → Step}
    (bodies : ∀ node, depth < settings.maxCallDepth →
      Agree (depth + 1) (enter node) (enter' node)) :
    ∀ node : Node, node.Agrees settings depth enter enter'
  | .symbol _ | .number _ | .string _ | .bool _ => by
    intro env deep
    rw [Node.step, Node.step]
    apply Level.after
    intro _ _ _ _
    exact .pure _ _ deep
  | .function _ _ => by
    intro env deep
    rw [Node.step, Node.step]
    apply Level.after
    intro _ _ _ _
    apply Level.after
    intro serial _ _ _
    exact .pure _ _ deep
  | .vector x y => vector_agrees (node_agrees bodies x) (node_agrees bodies y)
  | .composite statements => composite_agrees (nodes_agrees bodies statements)
  | .label _ value => label_agrees (node_agrees bodies value)
  | .call _ args => call_agrees bodies (nodes_agrees bodies args)
  | .body _ args attrs => body_agrees (nodes_agrees bodies args) (attrs_agrees bodies attrs)
  | .constraint source _ target attrs => constraint_agrees (node_agrees bodies source)
    (node_agrees bodies target) (attrs_agrees bodies attrs)
  | .scope block attrs => scope_agrees (node_agrees bodies block) (attrs_agrees bodies attrs)

theorem nodes_agrees {settings : Settings} {depth : Nat} {enter enter' : Node → Step}
    (bodies : ∀ node, depth < settings.maxCallDepth →
      Agree (depth + 1) (enter node) (enter' node)) :
    ∀ nodes : List Node, ∀ node ∈ nodes, node.Agrees settings depth enter enter'
  | [] => List.forall_mem_nil _
  | node :: nodes =>
    List.forall_mem_cons.mpr ⟨node_agrees bodies node, nodes_agrees bodies nodes⟩

theorem attrs_agrees {settings : Settings} {depth : Nat} {enter enter' : Node → Step}
    (bodies : ∀ node, depth < settings.maxCallDepth →
      Agree (depth + 1) (enter node) (enter' node)) :
    ∀ attrs : List (String × Node), ∀ node ∈ attrs.map Prod.snd,
      node.Agrees settings depth enter enter'
  | [] => List.forall_mem_nil _
  | (_, node) :: attrs =>
    List.forall_mem_cons.mpr ⟨node_agrees bodies node, attrs_agrees bodies attrs⟩

end

/-- Where the evaluator succeeds it comes back to the depth at which it began. -/
theorem eval_agree (settings : Settings) (depth : Nat) (node : Node) :
    Agree depth (node.eval settings) (node.eval settings) := by
  intro env deep
  refine ⟨fun _ => rfl, fun {run env' v run'} ran => ?_⟩
  have derived : Derived settings (.node node) ⟨env, run⟩ [v] ⟨env', run'⟩ :=
    derived_iff_eval.mpr ran
  exact derived.depth_eq.trans deep

/-- The evaluator runs the bodies of functions by itself. -/
theorem eval_recursion (settings : Settings) (node : Node) (env : Environment) :
    node.eval settings env = node.step settings (Node.eval settings) env := by
  funext run
  have bodies (body : Node) (shallow : env.depth < settings.maxCallDepth) :
      Agree (env.depth + 1) (settings.enter (settings.room env) body) (body.eval settings) := by
    intro inner deep
    have room : settings.room env = settings.room inner + 1 := by
      simp only [Settings.room, deep]
      omega
    rw [room]
    exact eval_agree settings (env.depth + 1) body inner deep
  exact (node_agrees bodies node env rfl).same run

/-- The bodies of functions are run as the evaluator runs them, one call deeper, if everything is
that begins there. -/
theorem bodies_agree {settings : Settings} {F : Node → Step} {bound depth : Nat}
    (limit : settings.maxCallDepth ≤ bound)
    (same : ∀ node env, env.depth = depth + 1 → env.depth ≤ bound →
      F node env = node.eval settings env)
    (node : Node) (shallow : depth < settings.maxCallDepth) :
    Agree (depth + 1) (F node) (node.eval settings) := by
  intro env deep
  have inside : env.depth ≤ bound := deep ▸ Nat.le_trans shallow limit
  rw [same node env deep inside]
  exact eval_agree settings (depth + 1) node env deep

/-- It runs the bodies of functions by itself, in every environment with no more open calls than the
bound. -/
def Solves (settings : Settings) (bound : Nat) (F : Node → Step) : Prop :=
  ∀ node env, env.depth ≤ bound → F node env = node.step settings F env

/-- To solve the recursion up to a bound, the limit at least, is to do what the evaluator does.
What is done in deeper environments does not matter. -/
theorem solves_iff_eval (settings : Settings) (F : Node → Step) {bound : Nat}
    (limit : settings.maxCallDepth ≤ bound) :
    Solves settings bound F ↔
      ∀ node env, env.depth ≤ bound → F node env = node.eval settings env := by
  constructor
  · intro solves
    have same (room : Nat) (node : Node) (env : Environment) (left : settings.room env = room)
        (inside : env.depth ≤ bound) : F node env = node.eval settings env := by
      induction room using Nat.strongRecOn generalizing node env with
      | _ room ih =>
        have bodies (body : Node) (shallow : env.depth < settings.maxCallDepth) :
            Agree (env.depth + 1) (F body) (body.eval settings) := by
          refine bodies_agree limit (fun body inner deep inside => ?_) body shallow
          have fewer : settings.room inner < room := by
            simp only [Settings.room, deep] at left ⊢
            omega
          exact ih _ fewer body inner rfl inside
        rw [solves node env inside, eval_recursion]
        exact funext (node_agrees bodies node env rfl).same
    exact fun node env => same _ node env rfl
  · intro same node env inside
    have bodies (body : Node) (shallow : env.depth < settings.maxCallDepth) :
        Agree (env.depth + 1) (F body) (body.eval settings) :=
      bodies_agree limit (fun body inner _ => same body inner) body shallow
    rw [same node env inside, eval_recursion]
    exact (funext (node_agrees bodies node env rfl).same).symm

end RigidScene
