import RigidScene.World.Engine

/-!
Engines that keep a log of their calls.

A recorded engine writes every call down before it passes it on.  It can be told to let one call
fail: the `at`-th call of a method, over the whole life of the engine, is written down, refused and
not passed on.
-/

namespace RigidScene

/-- A call of an engine with its arguments. -/
inductive Call where
  | createBody (spec : BodySpec)
  | createGroup (label : Option String)
  | addBody (group : GroupHandle) (body : BodyHandle)
  | addGroup (parent child : GroupHandle)
  | translateGroup (group : GroupHandle) (offset : Point)
  | rotateGroup (group : GroupHandle) (radians : Float) (about : Point)
  | scaleGroup (group : GroupHandle) (factor : Float) (about : Point)
  | createConstraint (spec : ConstraintSpec)
  | addConstraint (group : GroupHandle) (constraint : ConstraintHandle)
  | teardown
  deriving Repr

/-- The method that a call can be refused by. -/
def Call.method? : Call → Option Method
  | createBody _ => some .createBody
  | createGroup _ => some .createGroup
  | addBody _ _ => some .addBody
  | addGroup _ _ => some .addGroup
  | translateGroup _ _ => some .translateGroup
  | rotateGroup _ _ _ => some .rotateGroup
  | scaleGroup _ _ _ => some .scaleGroup
  | createConstraint _ => some .createConstraint
  | addConstraint _ _ => some .addConstraint
  | teardown => none

/-- Which call is to fail: the one with the given number, counted from one, of a method. -/
structure Fault where
  method : Method
  number : Nat
  deriving DecidableEq, Repr

/-- The state of an engine and the calls it has been given, in order. -/
structure Journal (σ : Type) where
  state : σ
  calls : List Call := []

namespace Journal

variable {σ : Type}

/-- How many calls of a method have been written down. -/
def count (calls : List Call) (m : Method) : Nat :=
  calls.countP (·.method? = some m)

/-- The last call of the log is the one that is to fail. -/
def failsAt (fault : Option Fault) (calls : List Call) (m : Method) : Bool :=
  match fault with
  | some f => f.method = m && f.number = count calls m
  | none => false

/-- Writes a call down and passes it on, unless it is to fail. -/
def note {α : Type} (fault : Option Fault) (m : Method) (call : Call) (act : Act σ α) :
    Act (Journal σ) α := fun j =>
  let calls := j.calls ++ [call]
  if failsAt fault calls m then (.error (.engine (.refused m)), { j with calls })
  else
    let (answer, state) := act j.state
    (answer, { state, calls })

end Journal

/-- The engine with a log, and with a call that is to fail. -/
def Engine.recorded {σ : Type} (e : Engine σ) (fault : Option Fault) : Engine (Journal σ) where
  root := e.root
  createBody spec := Journal.note fault .createBody (.createBody spec) (e.createBody spec)
  createGroup label := Journal.note fault .createGroup (.createGroup label) (e.createGroup label)
  addBody g b := Journal.note fault .addBody (.addBody g b) (e.addBody g b)
  addGroup p c := Journal.note fault .addGroup (.addGroup p c) (e.addGroup p c)
  translateGroup g offset :=
    Journal.note fault .translateGroup (.translateGroup g offset) (e.translateGroup g offset)
  rotateGroup g radians about :=
    Journal.note fault .rotateGroup (.rotateGroup g radians about) (e.rotateGroup g radians about)
  scaleGroup g factor about :=
    Journal.note fault .scaleGroup (.scaleGroup g factor about) (e.scaleGroup g factor about)
  createConstraint spec :=
    Journal.note fault .createConstraint (.createConstraint spec) (e.createConstraint spec)
  addConstraint g c := Journal.note fault .addConstraint (.addConstraint g c) (e.addConstraint g c)
  teardown j := { state := e.teardown j.state, calls := j.calls ++ [.teardown] }

end RigidScene
