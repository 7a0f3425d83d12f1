import RigidScene.Environment.Accumulate
import RigidScene.Eval.Call

/-!
Running programs.

`Node.step` is defined along the structure of a program, with `enter` for what is no part of it: the
bodies of functions that are called.  `Settings.enter` supplies that by recursion on the number of
calls that may still be nested, which the settings limit and the environment counts; so every run
ends.  Before each expression the run stops if it has been asked to, except at a bare name that is
an end of a constraint.
-/

namespace RigidScene

/-- The end of a constraint that a value stands for. -/
def Endpoint.ofValue : Value → Except EvalError Endpoint
  | .body b => .ok (.id b.id)
  | .string name => .ok (.label name)
  | v => .error (.invalidEndpoint v.kind)

/-- The end of a constraint: a bare name is looked up without being run, and an unbound one stays a
name; anything else is run. -/
def Endpoint.ofNode (node : Node) (run : Step) (env : Environment) :
    Eval (Environment × Endpoint) := do
  match node with
  | .symbol name =>
    match env.get? name with
    | none => return (env, .label name)
    | some v => return (env, ← Endpoint.ofValue v)
  | _ =>
    let (env, v) ← run env
    return (env, ← Endpoint.ofValue v)

/-- The number of a body or composite that carries no label. -/
def Value.unlabelled? : Value → Option EntityId
  | .body b => if b.label.isNone then some b.id else none
  | .composite c => if c.label.isNone then some c.id else none
  | _ => none

/-- A body or composite that carries the label. -/
def Value.withLabel (name : String) : Value → Value
  | .body b => .body { b with label := some name }
  | .composite c => .composite { c with label := some name }
  | v => v

/-- Binds a label to a value.  An entity without a label takes this one, in the block if it is there
and else by itself; one that has a label keeps it. -/
def Environment.declare (env : Environment) (policy : LabelPolicy) (name : String) (value : Value) :
    Except EvalError (Environment × Value) :=
  match value.unlabelled? with
  | none => .ok (env.define name value, value)
  | some id => do
    let (env, labelled) ← env.relabel policy id name
    let value := labelled.getD (value.withLabel name)
    return (env.define name value, value)

/-- What the name of a call means: a label, else a built-in. -/
def Environment.callee (env : Environment) (name : String) : Except EvalError Value :=
  match env.get? name with
  | some v => .ok v
  | none =>
    match Builtin.ofName? name with
    | some b => .ok (.builtin b)
    | none => .error (.functionNotFound name env.labels)

/-- A point from its evaluated components. -/
def Point.ofValues (x y : Value) : Except EvalError Point := do
  let x ← expectNumber (.component "x") x
  let y ← expectNumber (.component "y") y
  return ⟨x, y⟩

mutual

/-- Runs an expression or statement. -/
def Node.step (settings : Settings) (enter : Node → Step) : Node → Step
  | .symbol name, env => do
    Eval.checkInterrupt
    return (env, (env.get? name).getD (.string name))
  | .number x, env => do
    Eval.checkInterrupt
    return (env, .number x)
  | .string s, env => do
    Eval.checkInterrupt
    return (env, .string s)
  | .bool b, env => do
    Eval.checkInterrupt
    return (env, .bool b)
  | .vector x y, env => do
    Eval.checkInterrupt
    let (env, x) ← Node.step settings enter x env
    let (env, y) ← Node.step settings enter y env
    return (env, .vector (← Point.ofValues x y))
  | .body shape args attrs, env => do
    Eval.checkInterrupt
    match Shape.ofName? shape with
    | none => throw (.unknownShape shape)
    | some shape =>
      let (env, args) ← Node.stepArgs settings enter args env
      let (env, props) ← Node.stepAttrs settings enter attrs ∅ env
      let params ← shape.assign args
      let b : Body Value := ⟨← Eval.mintId, shape, params, props, none⟩
      let env ← env.addBody settings.labelPolicy b
      return (env, .body b)
  | .constraint source kind target attrs, env => do
    Eval.checkInterrupt
    let (env, source) ← Endpoint.ofNode source (Node.step settings enter source) env
    let (env, target) ← Endpoint.ofNode target (Node.step settings enter target) env
    let (env, attrs) ← Node.stepAttrs settings enter attrs ∅ env
    let c : Constraint Value := ⟨← Eval.mintId, source, kind, target, attrs⟩
    return (env.addConstraint c, .constraint c)
  | .composite statements, env => do
    Eval.checkInterrupt
    Node.stepAll settings enter statements .unit env
  | .scope block attrs, env => do
    Eval.checkInterrupt
    let (env, props) ← Node.stepAttrs settings enter attrs ∅ env
    let (transform, props) ← Transform.split props
    let (inner, _) ← Node.step settings enter block env.cleared
    let c := inner.toComposite (← Eval.mintId) transform props
    let env ← env.addComposite settings.labelPolicy c
    return (env, .composite c)
  | .label name value, env => do
    Eval.checkInterrupt
    let (env, value) ← Node.step settings enter value env
    env.declare settings.labelPolicy name value
  | .function params result, env => do
    Eval.checkInterrupt
    return (env, .closure ⟨← Eval.mintSerial, params, result, env.labels⟩)
  | .call callee args, env => do
    Eval.checkInterrupt
    let f ← env.callee callee
    let (env, args) ← Node.stepArgs settings enter args env
    Caller.fromProgram enter settings.maxCallDepth callee f args env

/-- Runs statements in order and answers the value of the last one. -/
def Node.stepAll (settings : Settings) (enter : Node → Step) : List Node → Value → Step
  | [], last, env => return (env, last)
  | node :: rest, _, env => do
    let (env, value) ← Node.step settings enter node env
    Node.stepAll settings enter rest value env

/-- Runs arguments in order. -/
def Node.stepArgs (settings : Settings) (enter : Node → Step) :
    List Node → Environment → Eval (Environment × List Value)
  | [], env => return (env, [])
  | node :: rest, env => do
    let (env, value) ← Node.step settings enter node env
    let (env, values) ← Node.stepArgs settings enter rest env
    return (env, value :: values)

/-- Runs attributes in order and adds them to those before. -/
def Node.stepAttrs (settings : Settings) (enter : Node → Step) :
    List (String × Node) → NameMap Value → Environment → Eval (Environment × NameMap Value)
  | [], done, env => return (env, done)
  | (key, node) :: rest, done, env => do
    let (env, value) ← Node.step settings enter node env
    Node.stepAttrs settings enter rest (done.insert key value) env

end

/-- Runs the body of a function from which calls may be nested `room` deep, itself included. -/
def Settings.enter (settings : Settings) : (room : Nat) → Node → Step
  | 0 => fun _ env => throw (.stackOverflow env.depth settings.maxCallDepth)
  | room + 1 => Node.step settings (settings.enter room)

/-- How deeply calls may still be nested. -/
def Settings.room (settings : Settings) (env : Environment) : Nat :=
  settings.maxCallDepth - env.depth

/-- Runs a program in an environment. -/
def Node.eval (settings : Settings) (node : Node) : Step := fun env =>
  node.step settings (settings.enter (settings.room env)) env

/-- Calls a value in an environment. -/
def Value.call (settings : Settings) (f : Value) (name : String) (args : List Value) : Step :=
  fun env =>
    Caller.fromProgram (settings.enter (settings.room env)) settings.maxCallDepth name f args env

/-- Runs a built-in without counting its arguments. -/
def Builtin.apply (settings : Settings) (b : Builtin) (args : List Value) : Step := fun env =>
  b.run (Caller.inLoop (settings.enter (settings.room env)) settings.maxCallDepth) args env

end RigidScene
