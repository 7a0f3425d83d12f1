import RigidScene.Proofs.Outcome
import RigidScene.World.Journal

/-!
Engines that refuse calls by a schedule.

A schedule looks at all calls that have been written down, the present one last, and says whether
that one is refused.  A recorded engine with one call that is to fail is an engine with a schedule.
-/

namespace RigidScene

/-- Which calls are refused, and with which error. -/
abbrev Schedule := List Call → Option EngineError

namespace Journal

variable {σ α : Type}

/-- Writes a call down and passes it on, unless the schedule refuses it. -/
def issue (schedule : Schedule) (call : Call) (act : Act σ α) : Act (Journal σ) α := fun j =>
  let calls := j.calls ++ [call]
  match schedule calls with
  | some error => (.error (.engine error), { j with calls })
  | none =>
    let (answer, state) := act j.state
    (answer, { state, calls })

/-- A call that succeeds has been passed on. -/
theorem issue_ok {schedule : Schedule} {call : Call} {act : Act σ α} {j j' : Journal σ} {a : α}
    (h : issue schedule call act j = (.ok a, j')) :
    act j.state = (.ok a, j'.state) ∧ j'.calls = j.calls ++ [call] := by
  unfold issue at h
  cases refused : schedule (j.calls ++ [call]) with
  | some error =>
    simp only [refused] at h
    cases h
  | none =>
    simp only [refused] at h
    obtain ⟨answered, rfl⟩ := Prod.mk.inj h
    exact ⟨Prod.ext answered rfl, rfl⟩

end Journal

/-- The engine with a log, and with calls that are refused. -/
def Engine.scheduled {σ : Type} (e : Engine σ) (schedule : Schedule) : Engine (Journal σ) where
  root := e.root
  createBody spec := Journal.issue schedule (.createBody spec) (e.createBody spec)
  createGroup label := Journal.issue schedule (.createGroup label) (e.createGroup label)
  addBody g b := Journal.issue schedule (.addBody g b) (e.addBody g b)
  addGroup p c := Journal.issue schedule (.addGroup p c) (e.addGroup p c)
  translateGroup g offset :=
    Journal.issue schedule (.translateGroup g offset) (e.translateGroup g offset)
  rotateGroup g radians about :=
    Journal.issue schedule (.rotateGroup g radians about) (e.rotateGroup g radians about)
  scaleGroup g factor about :=
    Journal.issue schedule (.scaleGroup g factor about) (e.scaleGroup g factor about)
  createConstraint spec :=
    Journal.issue schedule (.createConstraint spec) (e.createConstraint spec)
  addConstraint g c := Journal.issue schedule (.addConstraint g c) (e.addConstraint g c)
  teardown j := { state := e.teardown j.state, calls := j.calls ++ [.teardown] }

/-- The schedule that refuses one call. -/
def Fault.schedule (fault : Option Fault) : Schedule := fun calls =>
  match calls.getLast?.bind Call.method? with
  | some m => if Journal.failsAt fault calls m then some (.refused m) else none
  | none => none

theorem note_eq_issue {σ α : Type} (fault : Option Fault) {m : Method} {call : Call}
    (own : call.method? = some m) (act : Act σ α) (j : Journal σ) :
    Journal.note fault m call act j = Journal.issue (Fault.schedule fault) call act j := by
  have last : (j.calls ++ [call]).getLast?.bind Call.method? = some m := by
    rw [List.getLast?_concat, Option.bind_some, own]
  unfold Journal.note Journal.issue Fault.schedule
  simp only [last]
  cases Journal.failsAt fault (j.calls ++ [call]) m <;> rfl

/-- One call that is to fail is a schedule. -/
theorem recorded_eq_scheduled {σ : Type} (e : Engine σ) (fault : Option Fault) :
    e.recorded fault = e.scheduled (Fault.schedule fault) := by
  unfold Engine.recorded Engine.scheduled
  congr 1
  all_goals
    funext
    apply note_eq_issue
    rfl

end RigidScene
