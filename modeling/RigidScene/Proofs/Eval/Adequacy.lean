import Mathlib.Data.List.Basic
import RigidScene.Proofs.Eval.Answers
import RigidScene.Scene

/-!
What the evaluator does has a derivation, so derivations are exactly the successful runs.

The proof goes by the number of calls that may still be nested and, inside one body of a function,
by the structure of the program.  `derived_iff_eval` is the result: an expression has a derivation
exactly when the evaluator answers its value, the environment and the state of the run.
-/

namespace RigidScene

open Eval Outcome

/-- The calls that a built-in makes succeed as derivations say; loops pass numbers only. -/
def Callable (settings : Settings) (room : Nat) (call : Caller) : Prop :=
  ∀ name f args m v env' run', settings.room m.env = room → Numeric args →
    call name f args m.env m.run = (.ok (env', v), run') →
      Derived settings (.call name f args) m [v] ⟨env', run'⟩

/-- The bodies of functions succeed as derivations say, one call deeper. -/
def Enterable (settings : Settings) (room : Nat) : Prop :=
  ∀ node m v env' run', settings.room m.env + 1 = room →
    settings.enter room node m.env m.run = (.ok (env', v), run') →
      Derived settings (.node node) m [v] ⟨env', run'⟩

theorem refuse_callable (settings : Settings) (room : Nat) :
    Callable settings room Caller.refuse := by
  intro name f args m v env' run' _ _ h
  exact (throw_ok_iff.mp h).elim

/-- A built-in is called with as many arguments as it takes, and only the entities that it leaves
come back. -/
theorem builtin_call_ok_iff {call : Caller} {b : Builtin} {args : List Value}
    {env env' : Environment} {run run' : Run} {v : Value} :
    b.call call args env run = (.ok (env', v), run') ↔
      (∀ n, b.arity? = some n → args.length = n) ∧
        ∃ inner, b.run call args env run = (.ok (inner, v), run') ∧
          env.withEntitiesOf inner = env' := by
  unfold Builtin.call
  cases b.arity? with
  | none =>
    simp only [bind_ok_iff, pure_ok_iff, Prod.exists, Prod.mk.injEq]
    simp
  | some n =>
    by_cases count : args.length = n
    · simp only [ne_eq, count, not_true_eq_false, if_false, bind_ok_iff, pure_ok_iff, Prod.exists,
        Prod.mk.injEq]
      simp
    · simp only [ne_eq, count, not_false_eq_true, if_true, bind_ok_iff, throw_ok_iff, false_and,
        exists_false, Option.some.injEq, forall_eq', false_and]

section Calls

variable {settings : Settings} {room : Nat} {call : Caller} {name : String} {args : List Value}
  {m : Moment} {v : Value} {env' : Environment} {run' : Run}

theorem sweep_derived (callable : Callable settings room call) {f : Value}
    {cells : List (List Nat)} {last : Value} (fits : settings.room m.env = room)
    (h : Builtin.sweep call name f cells last m.env m.run = (.ok (env', v), run')) :
    Derived settings (.sweep name f cells last) m [v] ⟨env', run'⟩ := by
  induction cells generalizing last m with
  | nil =>
    simp only [Builtin.sweep, pure_ok_iff, Prod.mk.injEq] at h
    obtain ⟨⟨rfl, rfl⟩, rfl⟩ := h
    exact .swept
  | cons cell cells ih =>
    simp only [Builtin.sweep, bind_ok_iff, Prod.exists] at h
    obtain ⟨env, w, run, first, rest⟩ := h
    have head := callable name f _ m w env run fits (loopArguments_numeric f cell) first
    exact .cell head (ih (m := ⟨env, run⟩) (head.room_eq.trans fits) rest)

theorem operation_derived {b : Builtin} {f : List Float → Float} (does : b.operation? = some f)
    (h : b.call call args m.env m.run = (.ok (env', v), run')) :
    Derived settings (.call name (.builtin b) args) m [v] ⟨env', run'⟩ := by
  obtain ⟨_, inner, ran, rfl⟩ := builtin_call_ok_iff.mp h
  simp only [run_operation does, bind_ok_iff, pure_ok_iff, lift_ok_iff, Prod.mk.injEq] at ran
  obtain ⟨xs, _, ⟨numbers, rfl⟩, ⟨rfl, rfl⟩, rfl⟩ := ran
  exact .operation does numbers

theorem builtin_derived (callable : Callable settings room call) {b : Builtin}
    (fits : settings.room m.env = room)
    (h : b.call call args m.env m.run = (.ok (env', v), run')) :
    Derived settings (.call name (.builtin b) args) m [v] ⟨env', run'⟩ := by
  cases b with
  | add | subtract | multiply | divide => exact operation_derived rfl h
  | halt =>
    obtain ⟨arity, inner, ran, rfl⟩ := builtin_call_ok_iff.mp h
    obtain rfl : args = [] := List.eq_nil_of_length_eq_zero (arity 0 rfl)
    simp only [Builtin.run, bind_ok_iff, interrupt_ok_iff, pure_ok_iff, Prod.mk.injEq] at ran
    obtain ⟨_, _, rfl, ⟨rfl, rfl⟩, rfl⟩ := ran
    exact .halt
  | «repeat» =>
    obtain ⟨arity, inner, ran, rfl⟩ := builtin_call_ok_iff.mp h
    obtain ⟨n, f, rfl⟩ := List.length_eq_two.mp (arity 2 rfl)
    simp only [Builtin.run, Builtin.runRepeat_eq, bind_ok_iff, lift_ok_iff] at ran
    obtain ⟨count, _, ⟨often, rfl⟩, ran⟩ := ran
    have swept := sweep_derived callable fits ran
    exact .repeat often swept
  | grid =>
    obtain ⟨arity, inner, ran, rfl⟩ := builtin_call_ok_iff.mp h
    obtain ⟨x, y, f, rfl⟩ := List.length_eq_three.mp (arity 3 rfl)
    simp only [Builtin.run, Builtin.runGrid_eq, bind_ok_iff, lift_ok_iff] at ran
    obtain ⟨nx, _, ⟨wide, rfl⟩, ny, _, ⟨high, rfl⟩, ran⟩ := ran
    have swept := sweep_derived callable fits ran
    exact .grid wide high swept

theorem callWith_derived (enterable : Enterable settings room)
    (callable : Callable settings room call) {f : Value} (fits : settings.room m.env = room)
    (h : Caller.callWith (settings.enter room) settings.maxCallDepth call name f args m.env m.run =
      (.ok (env', v), run')) : Derived settings (.call name f args) m [v] ⟨env', run'⟩ := by
  cases f with
  | closure c =>
    simp only [Caller.callWith, Closure.call, bind_ok_iff, lift_ok_iff, pure_ok_iff, Prod.exists,
      Prod.mk.injEq] at h
    obtain ⟨inner, _, ⟨entered, rfl⟩, inner', w, run, result, ⟨rfl, rfl⟩, rfl⟩ := h
    have deeper : settings.room inner + 1 = room := (prepare_room entered).symm.trans fits
    have body := enterable c.body ⟨inner, m.run⟩ w inner' run deeper result
    exact .closure entered body
  | builtin b => exact builtin_derived callable fits h
  | _ => exact (throw_ok_iff.mp h).elim

theorem fromProgram_derived (enterable : Enterable settings room) {f : Value}
    (fits : settings.room m.env = room)
    (h : Caller.fromProgram (settings.enter room) settings.maxCallDepth name f args m.env m.run =
      (.ok (env', v), run')) : Derived settings (.call name f args) m [v] ⟨env', run'⟩ := by
  refine callWith_derived enterable ?_ fits h
  intro name f args m v env' run' fits _ looped
  exact callWith_derived enterable (refuse_callable settings room) fits looped

end Calls

/-- The expression succeeds as derivations say, with room for so many calls. -/
def Node.Faithful (settings : Settings) (room : Nat) (node : Node) : Prop :=
  ∀ (m : Moment) (v : Value) (env' : Environment) (run' : Run), settings.room m.env = room →
    node.step settings (settings.enter room) m.env m.run = (.ok (env', v), run') →
      Derived settings (.node node) m [v] ⟨env', run'⟩

section Constructs

variable {settings : Settings} {room : Nat}

theorem leaf_faithful {node : Node} (bare : ∀ env, ∃ v, node.leaf? env = some v ∧
    ∀ enter, node.step settings enter env = (do
      checkInterrupt
      return (env, v))) : node.Faithful settings room := by
  intro m v env' run' _ h
  obtain ⟨w, value, step⟩ := bare m.env
  simp only [step, bind_ok_iff, checkInterrupt_ok_iff, pure_ok_iff, Prod.mk.injEq] at h
  obtain ⟨_, _, ⟨ready, rfl⟩, ⟨rfl, rfl⟩, rfl⟩ := h
  exact .leaf ready value

theorem function_faithful {params : List String} {result : Node} :
    (Node.function params result).Faithful settings room := by
  intro m v env' run' _ h
  simp only [Node.step, bind_ok_iff, checkInterrupt_ok_iff, mintSerial_ok_iff, pure_ok_iff,
    Prod.mk.injEq] at h
  obtain ⟨_, _, ⟨ready, rfl⟩, _, _, ⟨rfl, rfl⟩, ⟨rfl, rfl⟩, rfl⟩ := h
  exact .function ready

theorem vector_faithful {x y : Node} (first : x.Faithful settings room)
    (second : y.Faithful settings room) : (Node.vector x y).Faithful settings room := by
  intro m v env' run' fits h
  simp only [Node.step, bind_ok_iff, checkInterrupt_ok_iff, lift_ok_iff, pure_ok_iff,
    Prod.exists, Prod.mk.injEq] at h
  obtain ⟨_, _, ⟨ready, rfl⟩, env₁, vx, run₁, ranX, env₂, vy, run₂, ranY, p, _,
    ⟨point, rfl⟩, ⟨rfl, rfl⟩, rfl⟩ := h
  have derivedX := first m vx env₁ run₁ fits ranX
  have fits₁ := derivedX.room_eq.trans fits
  have derivedY := second ⟨env₁, run₁⟩ vy env₂ run₂ fits₁ ranY
  exact .vector ready derivedX derivedY point

/-- Expressions one after another succeed as derivations say if each of them does. -/
theorem nodes_derived {nodes : List Node} (parts : ∀ node ∈ nodes, node.Faithful settings room)
    {m : Moment} {vs : List Value} {env' : Environment} {run' : Run}
    (fits : settings.room m.env = room)
    (h : Node.stepArgs settings (settings.enter room) nodes m.env m.run =
      (.ok (env', vs), run')) : Derived settings (.nodes nodes) m vs ⟨env', run'⟩ := by
  induction nodes generalizing m vs with
  | nil =>
    simp only [Node.stepArgs, pure_ok_iff, Prod.mk.injEq] at h
    obtain ⟨⟨rfl, rfl⟩, rfl⟩ := h
    exact .nil
  | cons node nodes ih =>
    obtain ⟨here, later⟩ := List.forall_mem_cons.mp parts
    simp only [Node.stepArgs, bind_ok_iff, pure_ok_iff, Prod.exists, Prod.mk.injEq] at h
    obtain ⟨env₁, w, run₁, first, env₂, ws, run₂, second, ⟨rfl, rfl⟩, rfl⟩ := h
    have head := here m w env₁ run₁ fits first
    exact .cons head (ih later (m := ⟨env₁, run₁⟩) (head.room_eq.trans fits) second)

theorem composite_faithful {statements : List Node}
    (parts : ∀ node ∈ statements, node.Faithful settings room) :
    (Node.composite statements).Faithful settings room := by
  intro m v env' run' fits h
  simp only [Node.step, stepAll_eq, bind_ok_iff, checkInterrupt_ok_iff, pure_ok_iff, Prod.exists,
    Prod.mk.injEq] at h
  obtain ⟨_, _, ⟨ready, rfl⟩, env₁, vs, run₁, ran, ⟨rfl, rfl⟩, rfl⟩ := h
  exact .composite ready (nodes_derived parts fits ran)

theorem label_faithful {name : String} {value : Node} (part : value.Faithful settings room) :
    (Node.label name value).Faithful settings room := by
  intro m v env' run' fits h
  simp only [Node.step, bind_ok_iff, checkInterrupt_ok_iff, lift_ok_iff, Prod.exists] at h
  obtain ⟨_, _, ⟨ready, rfl⟩, env₁, w, run₁, ran, declared, rfl⟩ := h
  exact .label ready (part m w env₁ run₁ fits ran) declared

theorem call_faithful (enterable : Enterable settings room) {callee : String} {args : List Node}
    (parts : ∀ node ∈ args, node.Faithful settings room) :
    (Node.call callee args).Faithful settings room := by
  intro m v env' run' fits h
  simp only [Node.step, bind_ok_iff, checkInterrupt_ok_iff, lift_ok_iff, Prod.exists] at h
  obtain ⟨_, _, ⟨ready, rfl⟩, f, _, ⟨found, rfl⟩, env₁, vs, run₁, ran, called⟩ := h
  have arguments := nodes_derived parts fits ran
  have fits₁ := arguments.room_eq.trans fits
  exact .call ready found arguments (fromProgram_derived enterable (m := ⟨env₁, run₁⟩) fits₁ called)

theorem addBody_new (env : Environment) (policy : LabelPolicy) (b : Body Value)
    (new : b.label = none) :
    env.addBody policy b = .ok { env with bodies := env.bodies ++ [b] } := by
  simp only [Environment.addBody, Environment.checkOwnLabel, new]
  rfl

theorem body_faithful {name : String} {args : List Node} {attrs : List (String × Node)}
    (parts : ∀ node ∈ args, node.Faithful settings room)
    (properties : ∀ node ∈ attrs.map Prod.snd, node.Faithful settings room) :
    (Node.body name args attrs).Faithful settings room := by
  intro m v env' run' fits h
  simp only [Node.step, stepAttrs_eq, bind_ok_iff, checkInterrupt_ok_iff] at h
  obtain ⟨_, _, ⟨ready, rfl⟩, h⟩ := h
  cases known : Shape.ofName? name with
  | none =>
    rw [known] at h
    exact (throw_ok_iff.mp h).elim
  | some shape =>
    rw [known] at h
    simp only [bind_ok_iff, lift_ok_iff, pure_ok_iff, mintId_ok_iff, addBody_new, Prod.exists,
      Prod.mk.injEq, Except.ok.injEq] at h
    obtain ⟨env₁, vs, run₁, first, env₂, props, run₂, ⟨_, ws, _, second, ⟨rfl, rfl⟩, rfl⟩,
      params, _, ⟨assigned, rfl⟩, _, _, ⟨rfl, rfl⟩, _, _, ⟨rfl, rfl⟩, ⟨rfl, rfl⟩, rfl⟩ := h
    have arguments := nodes_derived parts fits first
    have fits₁ := arguments.room_eq.trans fits
    have attributes := nodes_derived properties (m := ⟨env₁, run₁⟩) fits₁ second
    exact .body ready known arguments attributes assigned

/-- An end of a constraint is derived as its expression is, unless it is a bare name. -/
theorem endpoint_derived {node : Node} (part : node.Faithful settings room) {m : Moment} {v : Value}
    {env' : Environment} {run' : Run} (fits : settings.room m.env = room)
    (h : Endpoint.valueOf node (node.step settings (settings.enter room)) m.env m.run =
      (.ok (env', v), run')) : Derived settings (.endpoint node) m [v] ⟨env', run'⟩ := by
  cases node with
  | symbol name =>
    simp only [Endpoint.valueOf, pure_ok_iff, Prod.mk.injEq] at h
    obtain ⟨⟨rfl, rfl⟩, rfl⟩ := h
    exact .endName
  | _ => exact .endNode (fun _ other => by cases other) (part m v env' run' fits h)

theorem constraint_faithful {source target : Node} {kind : EdgeKind} {attrs : List (String × Node)}
    (first : source.Faithful settings room) (second : target.Faithful settings room)
    (properties : ∀ node ∈ attrs.map Prod.snd, node.Faithful settings room) :
    (Node.constraint source kind target attrs).Faithful settings room := by
  intro m v env' run' fits h
  simp only [Node.step, ofNode_eq, stepAttrs_eq, bind_ok_iff, checkInterrupt_ok_iff, lift_ok_iff,
    pure_ok_iff, mintId_ok_iff, Prod.exists, Prod.mk.injEq] at h
  obtain ⟨_, _, ⟨ready, rfl⟩, env₁, s, run₁,
    ⟨_, v₁, _, ran₁, _, _, ⟨source_, rfl⟩, ⟨rfl, rfl⟩, rfl⟩, env₂, t, run₂,
    ⟨_, v₂, _, ran₂, _, _, ⟨target_, rfl⟩, ⟨rfl, rfl⟩, rfl⟩, env₃, _, run₃,
    ⟨_, ws, _, ran₃, ⟨rfl, rfl⟩, rfl⟩, _, _, ⟨rfl, rfl⟩, ⟨rfl, rfl⟩, rfl⟩ := h
  have derived₁ := endpoint_derived first fits ran₁
  have fits₁ := derived₁.room_eq.trans fits
  have derived₂ := endpoint_derived second (m := ⟨_, _⟩) fits₁ ran₂
  have fits₂ := derived₂.room_eq.trans fits₁
  have derived₃ := nodes_derived properties (m := ⟨_, _⟩) fits₂ ran₃
  exact .constraint ready derived₁ source_ derived₂ target_ derived₃

theorem addComposite_new (env : Environment) (policy : LabelPolicy) (c : Composite Value)
    (new : c.label = none) :
    env.addComposite policy c = .ok { env with composites := env.composites ++ [c] } := by
  simp only [Environment.addComposite, Environment.checkOwnLabel, new]
  rfl

theorem scope_faithful {block : Node} {attrs : List (String × Node)}
    (part : block.Faithful settings room)
    (properties : ∀ node ∈ attrs.map Prod.snd, node.Faithful settings room) :
    (Node.scope block attrs).Faithful settings room := by
  intro m v env' run' fits h
  simp only [Node.step, stepAttrs_eq, bind_ok_iff, checkInterrupt_ok_iff, lift_ok_iff,
    pure_ok_iff, mintId_ok_iff, Prod.exists, Prod.mk.injEq] at h
  obtain ⟨_, _, ⟨ready, rfl⟩, env₁, _, run₁, ⟨_, ws, _, ran₁, ⟨rfl, rfl⟩, rfl⟩,
    transform, props, _, ⟨placed, rfl⟩, env₂, w, run₂, ran₂, _, _, ⟨rfl, rfl⟩,
    _, _, ⟨added, rfl⟩, ⟨rfl, rfl⟩, rfl⟩ := h
  rw [addComposite_new _ _ _ rfl] at added
  cases added
  have attributes := nodes_derived properties fits ran₁
  have fits₁ := attributes.room_eq.trans fits
  have inside := part (Moment.opened ⟨_, _⟩) w env₂ run₂ fits₁ ran₂
  exact .scope ready attributes placed inside

end Constructs

mutual

/-- Every expression succeeds as derivations say if the bodies of functions do. -/
theorem node_faithful {settings : Settings} {room : Nat} (enterable : Enterable settings room) :
    ∀ node : Node, node.Faithful settings room
  | .symbol _ => leaf_faithful fun _ => ⟨_, rfl, fun _ => by rw [Node.step]⟩
  | .number _ => leaf_faithful fun _ => ⟨_, rfl, fun _ => by rw [Node.step]⟩
  | .string _ => leaf_faithful fun _ => ⟨_, rfl, fun _ => by rw [Node.step]⟩
  | .bool _ => leaf_faithful fun _ => ⟨_, rfl, fun _ => by rw [Node.step]⟩
  | .function _ _ => function_faithful
  | .vector x y => vector_faithful (node_faithful enterable x) (node_faithful enterable y)
  | .composite statements => composite_faithful (nodes_faithful enterable statements)
  | .label _ value => label_faithful (node_faithful enterable value)
  | .call _ args => call_faithful enterable (nodes_faithful enterable args)
  | .body _ args attrs =>
    body_faithful (nodes_faithful enterable args) (attrs_faithful enterable attrs)
  | .constraint source _ target attrs => constraint_faithful (node_faithful enterable source)
    (node_faithful enterable target) (attrs_faithful enterable attrs)
  | .scope block attrs =>
    scope_faithful (node_faithful enterable block) (attrs_faithful enterable attrs)

theorem nodes_faithful {settings : Settings} {room : Nat} (enterable : Enterable settings room) :
    ∀ nodes : List Node, ∀ node ∈ nodes, node.Faithful settings room
  | [] => List.forall_mem_nil _
  | node :: nodes =>
    List.forall_mem_cons.mpr ⟨node_faithful enterable node, nodes_faithful enterable nodes⟩

theorem attrs_faithful {settings : Settings} {room : Nat} (enterable : Enterable settings room) :
    ∀ attrs : List (String × Node), ∀ node ∈ attrs.map Prod.snd, node.Faithful settings room
  | [] => List.forall_mem_nil _
  | (_, node) :: attrs =>
    List.forall_mem_cons.mpr ⟨node_faithful enterable node, attrs_faithful enterable attrs⟩

end

/-- At every depth the bodies of functions run as derivations say. -/
theorem enterable (settings : Settings) (room : Nat) : Enterable settings room := by
  induction room with
  | zero =>
    intro node m v env' run' deeper _
    exact absurd deeper (Nat.succ_ne_zero _)
  | succ room ih =>
    intro node m v env' run' deeper h
    exact node_faithful ih node m v env' run' (Nat.succ.inj deeper) h

/-- An expression has exactly the derivations that the evaluator answers. -/
theorem derived_iff_eval {settings : Settings} {node : Node} {m m' : Moment} {v : Value} :
    Derived settings (.node node) m [v] m' ↔
      node.eval settings m.env m.run = (.ok (m'.env, v), m'.run) := by
  constructor
  · intro derived
    exact answers_node.mp derived.answers
  · intro h
    exact node_faithful (enterable settings _) node m v m'.env m'.run rfl h

/-- So do expressions one after another. -/
theorem derived_iff_stepArgs {settings : Settings} {nodes : List Node} {m m' : Moment}
    {vs : List Value} : Derived settings (.nodes nodes) m vs m' ↔
      Node.stepArgs settings (settings.enter (settings.room m.env)) nodes m.env m.run =
        (.ok (m'.env, vs), m'.run) :=
  ⟨Derived.answers, nodes_derived (nodes_faithful (enterable settings _) nodes) rfl⟩

/-- So do calls. -/
theorem derived_iff_call {settings : Settings} {name : String} {f : Value} {args : List Value}
    {m m' : Moment} {v : Value} : Derived settings (.call name f args) m [v] m' ↔
      f.call settings name args m.env m.run = (.ok (m'.env, v), m'.run) := by
  constructor
  · intro derived
    exact answers_call.mp derived.answers
  · intro h
    exact fromProgram_derived (enterable settings _) rfl h

/-- The root of a scene is the block that the derivation of its program leads to. -/
theorem derived_of_ofNode {settings : Settings} {program : Node} {run run' : Run} {scene : Scene}
    (evaluated : Scene.ofNode settings program run = (.ok scene, run')) :
    ∃ env : Environment, scene.root = env.toComposite 0 .identity ∅ ∧
      Derived settings (.node program) ⟨.empty, run⟩ [scene.value] ⟨env, run'⟩ := by
  simp only [Scene.ofNode, Scene.ofNodeIn, bind_ok_iff, pure_ok_iff, Prod.exists] at evaluated
  obtain ⟨env, v, mid, ran, rfl, rfl⟩ := evaluated
  exact ⟨env, rfl, derived_iff_eval.mpr ran⟩

end RigidScene
