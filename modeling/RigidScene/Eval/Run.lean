import RigidScene.Eval.Error

/-!
What a run depends on and what it changes besides the environment.

`Settings` stay the same during a run.  `Run` is the state that outlives even a failed step: the
count of entities, the next function serial and the request to stop.  `Eval` is the type of steps;
a step that fails still answers the state it reached.
-/

namespace RigidScene

/-- What happens when two entities of one block carry the same label. -/
inductive LabelPolicy where
  /-- The run fails. -/
  | reject
  /-- Both keep it. -/
  | allow
  deriving DecidableEq, Repr

/-- The settings of a run. -/
structure Settings where
  /-- How deeply calls of functions may be nested. -/
  maxCallDepth : Nat := 256
  /-- Steps are to be reported; results do not depend on it. -/
  trace : Bool := false
  labelPolicy : LabelPolicy := .reject
  deriving DecidableEq, Repr

/-- The state of a run. -/
structure Run where
  /-- The count that the next entity number is taken from; zero is kept for the root. -/
  nextId : Nat := 1
  nextSerial : Nat := 0
  interrupted : Bool := false
  deriving DecidableEq, Repr

/-- The entity number of a count.  There are `2 ^ 64` numbers; behind the last one comes zero. -/
def EntityId.ofCount (count : Nat) : EntityId :=
  count % UInt64.size

/-- A step of a run. -/
abbrev Eval (α : Type) := ExceptT EvalError (StateM Run) α

namespace Eval

/-- A fresh entity number. -/
def mintId : Eval EntityId := do
  let run ← get
  set { run with nextId := run.nextId + 1 }
  return .ofCount run.nextId

/-- A fresh function serial. -/
def mintSerial : Eval Nat := do
  let run ← get
  set { run with nextSerial := run.nextSerial + 1 }
  return run.nextSerial

/-- Requests that the run stop. -/
def interrupt : Eval Unit :=
  modify fun run => { run with interrupted := true }

/-- Fails if the run has been asked to stop. -/
def checkInterrupt : Eval Unit := do
  if (← get).interrupted then throw .interrupted

end Eval

end RigidScene
