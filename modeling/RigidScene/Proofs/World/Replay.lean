import Mathlib.Data.List.Basic
import RigidScene.Proofs.World.Schedule

/-!
Logs of calls, carried out again.

`Engine.replay` gives an engine the calls of a log in order and answers the handles that they are
answered with.  A schedule refuses at most one call of a log, since nothing is called behind that
one: `Schedule.refusal?` finds it, and for a single fault it is the call with the fault's number.
-/

namespace RigidScene

open Outcome

/-- What an engine knows the things by that it has made. -/
inductive Handle where
  | body (handle : BodyHandle)
  | group (handle : GroupHandle)
  | constraint (handle : ConstraintHandle)
  deriving DecidableEq, Repr

/-- The handles that a call passes to the engine. -/
def Call.uses : Call → List Handle
  | createBody _ | createGroup _ | teardown => []
  | addBody g b => [.group g, .body b]
  | addGroup parent child => [.group parent, .group child]
  | translateGroup g _ | rotateGroup g _ _ | scaleGroup g _ _ => [.group g]
  | createConstraint spec => [.body spec.first, .body spec.second]
  | addConstraint g c => [.group g, .constraint c]

namespace Engine

variable {σ : Type} (e : Engine σ)

/-- Carries a call out and answers the handle that it is answered with, if it makes something. -/
def perform : Call → Act σ (Option Handle)
  | .createBody spec => (some ∘ .body) <$> e.createBody spec
  | .createGroup label => (some ∘ .group) <$> e.createGroup label
  | .addBody g b => (fun _ => none) <$> e.addBody g b
  | .addGroup parent child => (fun _ => none) <$> e.addGroup parent child
  | .translateGroup g offset => (fun _ => none) <$> e.translateGroup g offset
  | .rotateGroup g radians about => (fun _ => none) <$> e.rotateGroup g radians about
  | .scaleGroup g factor about => (fun _ => none) <$> e.scaleGroup g factor about
  | .createConstraint spec => (some ∘ .constraint) <$> e.createConstraint spec
  | .addConstraint g c => (fun _ => none) <$> e.addConstraint g c
  | .teardown => (fun _ => none) <$> modify e.teardown

/-- Carries the calls of a log out and answers the handles they are answered with. -/
def replay : List Call → Act σ (List Handle)
  | [] => return []
  | call :: rest => do
    let made ← e.perform call
    let later ← replay rest
    return made.toList ++ later

variable {e} {s mid s' : σ} {front back : List Call} {hs hs' : List Handle}

theorem replay_single {call : Call} {made : Option Handle}
    (h : e.perform call s = (.ok made, s')) : e.replay [call] s = (.ok made.toList, s') := by
  refine (bind_of_ok h).trans ?_
  simp only [replay, pure_bind, List.append_nil]
  rfl

/-- A call that is carried out is logged, and replaying it does the same. -/
theorem replay_issued {α : Type} {schedule : Schedule} {call : Call} {act : Act σ α}
    {handle : α → Option Handle} (performs : e.perform call = handle <$> act) {j j' : Journal σ}
    {a : α} (h : Journal.issue schedule call act j = (.ok a, j')) :
    j'.calls = j.calls ++ [call] ∧
      e.replay [call] j.state = (.ok (handle a).toList, j'.state) := by
  obtain ⟨answered, calls⟩ := Journal.issue_ok h
  refine ⟨calls, replay_single ?_⟩
  rw [performs, map_eq_pure_bind]
  exact bind_of_ok answered

/-- A log in two parts is carried out part by part. -/
theorem replay_append (first : e.replay front s = (.ok hs, mid))
    (second : e.replay back mid = (.ok hs', s')) :
    e.replay (front ++ back) s = (.ok (hs ++ hs'), s') := by
  induction front generalizing s hs with
  | nil =>
    obtain ⟨rfl, rfl⟩ := pure_ok_iff.mp first
    exact second
  | cons call front ih =>
    simp only [replay, bind_ok_iff, pure_ok_iff] at first
    obtain ⟨made, s₁, performed, later, _, rest, rfl, rfl⟩ := first
    simp only [List.cons_append, replay, bind_ok_iff, pure_ok_iff]
    exact ⟨made, s₁, performed, later ++ hs', s', ih rest, by rw [List.append_assoc], rfl⟩

end Engine

/-- A call of a log that is refused, with the calls before it. -/
structure Refusal where
  before : List Call
  call : Call
  error : EngineError

namespace Schedule

variable {schedule : Schedule}

/-- The first call of a log that the schedule refuses, where other calls have been made before. -/
def refusal? (schedule : Schedule) (past : List Call) : (log : List Call) → Option Refusal
  | [] => none
  | call :: rest =>
    match schedule (past ++ [call]) with
    | some error => some ⟨[], call, error⟩
    | none => (refusal? schedule (past ++ [call]) rest).map fun r =>
      { r with before := call :: r.before }

/-- In a log of two parts the first refusal is that of the first part, else that of the second. -/
theorem refusal?_append (past log more : List Call) :
    schedule.refusal? past (log ++ more) =
      (schedule.refusal? past log).or ((schedule.refusal? (past ++ log) more).map fun r =>
        { r with before := log ++ r.before }) := by
  induction log generalizing past with
  | nil => simp [refusal?]
  | cons call log ih =>
    cases refused : schedule (past ++ [call]) with
    | some error => simp [refusal?, refused]
    | none =>
      simp only [List.cons_append, refusal?, refused, ih, List.append_assoc, List.nil_append]
      cases schedule.refusal? (past ++ [call]) log <;> simp [Function.comp_def]

end Schedule

namespace Journal

theorem count_append (log more : List Call) (m : Method) :
    count (log ++ more) m = count log m + count more m :=
  List.countP_append

/-- A call counts for its own method. -/
theorem count_single (call : Call) (m : Method) :
    count [call] m = if call.method? = some m then 1 else 0 := by
  simp [count, List.countP_singleton]

end Journal

namespace Fault

open Journal

/-- A fault refuses a call exactly if it is one of its method and the one with its number. -/
theorem schedule_concat (fault : Fault) (past : List Call) (call : Call) :
    Fault.schedule (some fault) (past ++ [call]) =
      if call.method? = some fault.method ∧ count (past ++ [call]) fault.method = fault.number then
        some (.refused fault.method)
      else none := by
  unfold Fault.schedule
  rw [List.getLast?_concat, Option.bind_some]
  cases own : call.method? with
  | none => simp
  | some m =>
    by_cases same : m = fault.method
    · subst same
      simp [failsAt, eq_comm]
    · have other : fault.method ≠ m := fun equal => same equal.symm
      simp [failsAt, other, same]

/-- No call is refused if there are fewer calls of the method. -/
theorem refusal?_none {fault : Fault} {past log : List Call}
    (fewer : count (past ++ log) fault.method < fault.number) :
    (Fault.schedule (some fault)).refusal? past log = none := by
  induction log generalizing past with
  | nil => rfl
  | cons call log ih =>
    rw [List.append_cons, count_append] at fewer
    have passed : Fault.schedule (some fault) (past ++ [call]) = none := by
      rw [schedule_concat, if_neg]
      omega
    have later : count (past ++ [call] ++ log) fault.method < fault.number := by
      rw [count_append]
      exact fewer
    have rest := ih later
    simp only [Schedule.refusal?, passed, rest, Option.map_none]

/-- If there are as many calls of the method, the one with the number is refused. -/
theorem refusal?_some {fault : Fault} {past log : List Call}
    (before : count past fault.method < fault.number)
    (enough : fault.number ≤ count (past ++ log) fault.method) :
    ∃ front call back, log = front ++ call :: back ∧ call.method? = some fault.method ∧
      count (past ++ front) fault.method + 1 = fault.number ∧
      (Fault.schedule (some fault)).refusal? past log =
        some ⟨front, call, .refused fault.method⟩ := by
  induction log generalizing past with
  | nil =>
    rw [List.append_nil] at enough
    omega
  | cons call log ih =>
    have counted := count_append past [call] fault.method
    rw [count_single] at counted
    by_cases last : call.method? = some fault.method ∧
        count (past ++ [call]) fault.method = fault.number
    · rw [if_pos last.1] at counted
      refine ⟨[], call, log, rfl, last.1, ?_, ?_⟩
      · rw [List.append_nil]
        omega
      · simp [Schedule.refusal?, schedule_concat, last]
    · have later : count (past ++ [call]) fault.method < fault.number := by
        by_cases own : call.method? = some fault.method
        · have other : count (past ++ [call]) fault.method ≠ fault.number := fun same =>
            last ⟨own, same⟩
          rw [if_pos own] at counted
          omega
        · rw [if_neg own] at counted
          omega
      rw [List.append_cons] at enough
      obtain ⟨front, refused, back, rfl, method, number, found⟩ := ih later enough
      refine ⟨call :: front, refused, back, rfl, method, ?_, ?_⟩
      · rw [List.append_cons]
        exact number
      · simp only [Schedule.refusal?, schedule_concat, last, if_false, found, Option.map_some]

/-- Without a fault nothing is refused. -/
theorem schedule_none : Fault.schedule none = fun _ => none := by
  funext calls
  unfold Fault.schedule
  cases calls.getLast?.bind Call.method? <;> rfl

end Fault

end RigidScene
