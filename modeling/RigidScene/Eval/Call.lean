import RigidScene.Environment
import RigidScene.Eval.Construct
import RigidScene.Eval.Run

/-!
Calling functions and built-ins.

How the body of a function is run is not known here; it is given as `enter`.  A built-in may call
back: `repeat` and `grid` call the function they are given, with numbers as arguments.  So a
built-in that is called from a loop has only numbers to call and refuses each of them, and two
layers of `callWith` make up all calls there are.
-/

namespace RigidScene

/-- A step on an environment that answers a value. -/
abbrev Step := Environment → Eval (Environment × Value)

/-- A way to call a value by a name with arguments. -/
abbrev Caller := String → Value → List Value → Step

namespace Builtin

/-- The arguments of an operation, all of which must be numbers, counted from `position`. -/
def numbersFrom (op : Builtin) : Nat → List Value → Except EvalError (List Float)
  | _, [] => .ok []
  | position, v :: rest => do
    let x ← expectNumber (.argument position op) v
    let xs ← numbersFrom op (position + 1) rest
    return x :: xs

/-- The sum, which of nothing is a negative zero. -/
def sum (xs : List Float) : Float :=
  xs.foldl (· + ·) (-0.0)

/-- The product. -/
def product (xs : List Float) : Float :=
  xs.foldl (· * ·) 1

/-- The first number less the others; a single number is negated. -/
def difference : List Float → Float
  | [] => 0
  | [x] => -x
  | x :: xs => xs.foldl (· - ·) x

/-- The first number divided by the others; a single number is inverted. -/
def quotient : List Float → Float
  | [] => 1
  | [x] => 1 / x
  | x :: xs => xs.foldl (· / ·) x

/-- An operation on numbers. -/
def arithmetic (op : Builtin) (f : List Float → Float) (args : List Value) : Step := fun env => do
  let xs ← op.numbersFrom 1 args
  return (env, .number (f xs))

/-- The argument of a loop that says how often. -/
def countArgument (op : Builtin) (v : Value) : Except EvalError Nat :=
  countOf <$> expectNumber (.count op) v

/-- What a loop passes to the function it calls: the indices, unless the function has no
parameters. -/
def loopArguments (f : Value) (indices : List Nat) : List Value :=
  match f with
  | .closure c => if c.params.isEmpty then [] else indices.map fun i => .number (Float.ofNat i)
  | _ => indices.map fun i => .number (Float.ofNat i)

/-- Runs `step` for `count` indices from `first` on and answers the last value. -/
def iterate (step : Nat → Step) : (count first : Nat) → (last : Value) → Step
  | 0, _, last, env => return (env, last)
  | count + 1, first, _, env => do
    let (env, value) ← step first env
    iterate step count (first + 1) value env

/-- Runs `step` for `count` indices from `first` on where each may be a whole loop: the value
before it is handed to it. -/
def iterateFrom (step : Nat → Value → Step) : (count first : Nat) → (last : Value) → Step
  | 0, _, last, env => return (env, last)
  | count + 1, first, last, env => do
    let (env, value) ← step first last env
    iterateFrom step count (first + 1) value env

/-- `repeat(n, f)`: calls `f` for 0, 1, … -/
def runRepeat (call : Caller) (args : List Value) : Step := fun env =>
  match args with
  | [n, f] => do
    let n ← countArgument .repeat n
    iterate (fun i => call "repeat" f (loopArguments f [i])) n 0 .unit env
  | _ => throw (.arityMismatch "repeat" 2 args.length)

/-- How many rows are run: empty rows need not be. -/
def gridRows (nx ny : Nat) : Nat :=
  if nx = 0 then 0 else ny

/-- `grid(nx, ny, f)`: calls `f` for the cells of a grid, row after row. -/
def runGrid (call : Caller) (args : List Value) : Step := fun env =>
  match args with
  | [nx, ny, f] => do
    let nx ← countArgument .grid nx
    let ny ← countArgument .grid ny
    iterateFrom
      (fun y last => iterate (fun x => call "grid" f (loopArguments f [x, y])) nx 0 last)
      (gridRows nx ny) 0 .unit env
  | _ => throw (.arityMismatch "grid" 3 args.length)

/-- What a built-in does, given how it calls back. -/
def run (call : Caller) : Builtin → List Value → Step
  | add, args => arithmetic .add sum args
  | subtract, args => arithmetic .subtract difference args
  | multiply, args => arithmetic .multiply product args
  | divide, args => arithmetic .divide quotient args
  | «repeat», args => runRepeat call args
  | grid, args => runGrid call args
  | halt, _ => fun env => do
    Eval.interrupt
    return (env, .unit)

/-- A call of a built-in with any number of arguments. -/
def call (callback : Caller) (b : Builtin) (args : List Value) : Step := fun env => do
  match b.arity? with
  | some n => if args.length ≠ n then throw (.arityMismatch b.name n args.length)
  | none => pure ()
  let (inner, value) ← b.run callback args env
  return (env.withEntitiesOf inner, value)

end Builtin

/-- The environment in which the body of a function begins: the caller's, with captured labels
where the caller has none, and the parameters on top of both. -/
def Closure.prepare (c : Closure Value) (name : String) (args : List Value) (limit : Nat)
    (env : Environment) : Except EvalError Environment := do
  let bound ← (env.withFallback c.captured).bindParams name c.params args
  bound.enterCall limit

/-- A call of a function; of its labels nothing remains. -/
def Closure.call (enter : Node → Step) (limit : Nat) (name : String) (c : Closure Value)
    (args : List Value) : Step := fun env => do
  let inner ← c.prepare name args limit env
  let (inner, value) ← enter c.body inner
  return (env.withEntitiesOf inner, value)

namespace Caller

/-- Refuses to call anything. -/
def refuse : Caller := fun name f _ _ =>
  throw (.notCallable name f.kind)

/-- Calls a function, or a built-in that calls back in the given way. -/
def callWith (enter : Node → Step) (limit : Nat) (callback : Caller) : Caller :=
  fun name f args =>
    match f with
    | .closure c => c.call enter limit name args
    | .builtin b => b.call callback args
    | _ => refuse name f args

/-- Calls from inside a loop, where all arguments are numbers. -/
def inLoop (enter : Node → Step) (limit : Nat) : Caller :=
  callWith enter limit refuse

/-- Calls from a program. -/
def fromProgram (enter : Node → Step) (limit : Nat) : Caller :=
  callWith enter limit (inLoop enter limit)

end Caller

end RigidScene
