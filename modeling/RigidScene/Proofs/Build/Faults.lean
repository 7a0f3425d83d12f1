import RigidScene.Proofs.Build.CallOrder
import RigidScene.Proofs.Build.Following
import RigidScene.Proofs.Build.Prediction

/-!
Builds that an engine breaks off.

`Act.BreaksOff` compares an action on an engine that refuses nothing with the same action on one
that refuses calls by a schedule: the log of the first one decides what the second one does, which
goes on to the first refused call and no further.  So the log of a build without faults, the calls
of which may be carried out again one by one, tells how the build ends with any fault.
-/

namespace RigidScene

open Outcome Composite

/-- Nothing is refused. -/
def Schedule.never : Schedule :=
  fun _ => none

section BreaksOff

variable {σ α β : Type} {e : Engine σ} {schedule : Schedule}

/-- What the first action does with success the second one does, too, as far as the first call that
is refused: there it fails with the error of the refusal, in the state that the calls before lead
to. -/
def Act.BreaksOff (e : Engine σ) (schedule : Schedule) (x y : Act (Journal σ) α) : Prop :=
  ∀ j a j', x j = (.ok a, j') → ∃ log hs, j'.calls = j.calls ++ log ∧
    e.replay log j.state = (.ok hs, j'.state) ∧
      match schedule.refusal? j.calls log with
      | none => y j = (.ok a, j')
      | some r => ∃ made reached, e.replay r.before j.state = (.ok made, reached) ∧
        y j = (.error (.engine r.error), ⟨reached, j.calls ++ (r.before ++ [r.call])⟩)

theorem Act.BreaksOff.pure (a : α) :
    Act.BreaksOff e schedule (pure a : Act (Journal σ) α) (pure a) := by
  intro j b j' h
  obtain ⟨rfl, rfl⟩ := pure_ok_iff.mp h
  exact ⟨[], [], (List.append_nil _).symm, rfl, rfl⟩

theorem Act.BreaksOff.throw (error : BuildError) :
    Act.BreaksOff e schedule (throw error : Act (Journal σ) α) (throw error) := by
  intro j b j' h
  exact (throw_ok_iff.mp h).elim

theorem Act.BreaksOff.bind {x y : Act (Journal σ) α} {f g : α → Act (Journal σ) β}
    (first : Act.BreaksOff e schedule x y) (rest : ∀ a, Act.BreaksOff e schedule (f a) (g a)) :
    Act.BreaksOff e schedule (x >>= f) (y >>= g) := by
  intro j b j' h
  obtain ⟨a, mid, ran, later⟩ := bind_ok_iff.mp h
  obtain ⟨log, hs, calls, replayed, broken⟩ := first j a mid ran
  obtain ⟨more, hs', calls', replayed', broken'⟩ := rest a mid b j' later
  have whole := Engine.replay_append replayed replayed'
  refine ⟨log ++ more, hs ++ hs', by rw [calls', calls, List.append_assoc], whole, ?_⟩
  rw [Schedule.refusal?_append]
  cases early : schedule.refusal? j.calls log with
  | some r =>
    rw [early] at broken
    obtain ⟨made, reached, before, stopped⟩ := broken
    exact ⟨made, reached, before, bind_of_error stopped⟩
  | none =>
    rw [early] at broken
    rw [calls] at broken'
    cases late : schedule.refusal? (j.calls ++ log) more with
    | none =>
      rw [late] at broken'
      exact (bind_of_ok broken).trans broken'
    | some r =>
      rw [late] at broken'
      obtain ⟨made, reached, before, stopped⟩ := broken'
      refine ⟨hs ++ made, reached, Engine.replay_append replayed before, ?_⟩
      refine ((bind_of_ok broken).trans stopped).trans ?_
      simp only [List.append_assoc]

/-- Breaking off is kept by putting actions together. -/
def Act.BreaksOff.congruence (e : Engine σ) (schedule : Schedule) :
    Act.Congruence (Journal σ) (Journal σ) where
  rel := Act.BreaksOff e schedule
  pure := .pure
  throw := .throw
  bind := .bind

/-- A single call is carried out, or refused before anything happens. -/
theorem issue_breaksOff {call : Call} {act : Act σ α} {handle : α → Option Handle}
    (performs : e.perform call = handle <$> act) :
    Act.BreaksOff e schedule (Journal.issue .never call act) (Journal.issue schedule call act) := by
  intro j a j' h
  obtain ⟨calls, replayed⟩ := Engine.replay_issued performs h
  refine ⟨[call], _, calls, replayed, ?_⟩
  cases refused : schedule (j.calls ++ [call]) with
  | some error =>
    have stopped : Journal.issue schedule call act j =
        (.error (.engine error), ⟨j.state, j.calls ++ [call]⟩) := by
      simp only [Journal.issue, refused]
    simp only [Schedule.refusal?, refused]
    exact ⟨[], j.state, rfl, stopped⟩
  | none =>
    have passed : Journal.issue schedule call act j = Journal.issue .never call act j := by
      simp only [Journal.issue, refused, Schedule.never]
    simp only [Schedule.refusal?, refused, Option.map_none]
    rw [passed]
    exact h

theorem scheduled_breaksOff (e : Engine σ) (schedule : Schedule) :
    Engine.Related (Act.BreaksOff.congruence e schedule) (e.scheduled .never)
      (e.scheduled schedule) := by
  constructor
  · rfl
  all_goals
    intros
    exact issue_breaksOff rfl

/-- A build with refusals does what the log of the build without them says. -/
theorem build_breaksOff (e : Engine σ) (schedule : Schedule) (options : BuildOptions)
    (scene : Scene) :
    Act.BreaksOff e schedule ((e.scheduled .never).build options scene)
      ((e.scheduled schedule).build options scene) :=
  build_related (scheduled_breaksOff e schedule) scene

end BreaksOff

section Faults

variable {options : BuildOptions} {scene : Scene} {index : BodyIndex} {w : World} {log : List Call}

theorem recorded_none {σ : Type} (e : Engine σ) : e.recorded none = e.scheduled .never := by
  rw [recorded_eq_scheduled, Fault.schedule_none]
  rfl

/-- A scene that can be built passes the check. -/
theorem check_of_recorded
    (built : (World.engine.recorded none).build options scene ⟨.empty, []⟩ = (.ok index, ⟨w, log⟩)) :
    scene.check options = .ok () := by
  rw [recorded_none] at built
  obtain ⟨_, ran, _⟩ := build_follows World.engine .never options scene _ _ _ _ rfl built
  exact (build_ok ran).1

/-- A build that is broken off leaves nothing behind if it was begun as the start of a world. -/
theorem launch_of_failure {fault : Option Fault} {error : BuildError} {j : Journal World}
    (checked : scene.check options = .ok ())
    (failed : (World.engine.recorded fault).build options scene ⟨.empty, []⟩ = (.error error, j)) :
    LiveWorld.launch (World.engine.recorded fault) options scene ⟨.empty, []⟩ =
      .error (error, ⟨j.state.teardown, j.calls ++ [.teardown]⟩) := by
  simp only [LiveWorld.launch, checked, failed]
  rfl

/-- A build stops where the engine refuses a call.  Let a build in an empty world without faults
have a log.  With fewer calls of a method in the log, a fault in that method changes nothing.  Else
the build fails with the error of the fault; its log ends with the call that has the number of the
fault, and the world is the one that the calls before it lead to.  If a world was to be started so,
one teardown follows and the world is empty.  In the log itself all bodies and groups are made and
placed before any constraint is made, and every call passes only the root and handles that calls
before it have been answered with. -/
theorem build_stops_at_fault
    (built : (World.engine.recorded none).build options scene ⟨.empty, []⟩ = (.ok index, ⟨w, log⟩)) :
    (∀ fault : Fault, 0 < fault.number →
      (Journal.count log fault.method < fault.number →
        (World.engine.recorded (some fault)).build options scene ⟨.empty, []⟩ =
          (.ok index, ⟨w, log⟩)) ∧
      (fault.number ≤ Journal.count log fault.method →
        ∃ front call back made reached, log = front ++ call :: back ∧
          call.method? = some fault.method ∧
          Journal.count front fault.method + 1 = fault.number ∧
          World.engine.replay front .empty = (.ok made, reached) ∧
          (World.engine.recorded (some fault)).build options scene ⟨.empty, []⟩ =
            (.error (.engine (.refused fault.method)), ⟨reached, front ++ [call]⟩) ∧
          LiveWorld.launch (World.engine.recorded (some fault)) options scene ⟨.empty, []⟩ =
            .error (.engine (.refused fault.method),
              ⟨reached.teardown, front ++ [call] ++ [.teardown]⟩) ∧
          reached.teardown.isEmpty = true)) ∧
    (∃ front back, log = front ++ back ∧ (∀ call ∈ front, call.pass? = some .bodies) ∧
      ∀ call ∈ back, call.pass? = some .constraints) ∧
    ∀ front call back, log = front ++ call :: back → ∀ h ∈ call.uses,
      ∃ hs mid, World.engine.replay front .empty = (.ok hs, mid) ∧
        (h = .group World.engine.root ∨ h ∈ hs) := by
  have checked := check_of_recorded built
  rw [recorded_none] at built
  refine ⟨?_, build_calls built⟩
  intro fault positive
  have nothing : Journal.count [] fault.method < fault.number := positive
  obtain ⟨log', _, same, _, broken⟩ :=
    build_breaksOff World.engine (Fault.schedule (some fault)) options scene _ _ _ built
  obtain rfl : log = log' := same
  rw [← recorded_eq_scheduled] at broken
  constructor
  · intro fewer
    have passed : (Fault.schedule (some fault)).refusal? [] log = none :=
      Fault.refusal?_none fewer
    rw [passed] at broken
    exact broken
  · intro enough
    obtain ⟨front, call, back, whole, method, number, found⟩ :=
      Fault.refusal?_some nothing enough
    rw [found] at broken
    obtain ⟨made, reached, replayed, failed⟩ := broken
    exact ⟨front, call, back, made, reached, whole, method, number, replayed, failed,
      launch_of_failure checked failed, rfl⟩

end Faults

/-- Two circles with an edge between them are built by six calls; an engine that refuses the second
circle has been called three times, and one that refuses a third circle not at all. -/
theorem linkedCircles_stop :
    ∃ index w log,
      (World.engine.recorded none).build {} linkedCircles ⟨.empty, []⟩ = (.ok index, ⟨w, log⟩) ∧
      log.map Call.method? = [some .createBody, some .addBody, some .createBody, some .addBody,
        some .createConstraint, some .addConstraint] ∧
      (World.engine.recorded (some ⟨.createBody, 3⟩)).build {} linkedCircles ⟨.empty, []⟩ =
        (.ok index, ⟨w, log⟩) ∧
      ∃ reached front call,
        (World.engine.recorded (some ⟨.createBody, 2⟩)).build {} linkedCircles ⟨.empty, []⟩ =
          (.error (.engine (.refused .createBody)), ⟨reached, front ++ [call]⟩) ∧
        Journal.count front .createBody = 1 := by
  have calls : ((World.engine.recorded none).build {} linkedCircles ⟨.empty, []⟩).2.calls.map
      Call.method? = [some .createBody, some .addBody, some .createBody, some .addBody,
        some .createConstraint, some .addConstraint] := by rfl
  have succeeds : ((World.engine.recorded none).build {} linkedCircles ⟨.empty, []⟩).1.isOk =
      true := by rfl
  rcases built : (World.engine.recorded none).build {} linkedCircles ⟨.empty, []⟩ with
    ⟨failed | index, w, log⟩
  · rw [built] at succeeds
    cases succeeds
  · rw [built] at calls
    have circles : Journal.count log .createBody = 2 := by
      have counted : Journal.count log .createBody =
          (log.map Call.method?).countP (· = some .createBody) := by
        rw [List.countP_map]
        rfl
      rw [counted, calls]
      rfl
    obtain ⟨faults, _⟩ := build_stops_at_fault built
    have third := (faults ⟨.createBody, 3⟩ (by decide)).1 (by simp [circles])
    obtain ⟨front, call, _, _, reached, _, _, number, _, failed, _⟩ :=
      (faults ⟨.createBody, 2⟩ (by decide)).2 (by simp [circles])
    exact ⟨index, w, log, rfl, calls, third, reached, front, call, failed, Nat.succ.inj number⟩

end RigidScene
