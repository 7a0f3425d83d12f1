import RigidScene.Proofs.Eval.Lockstep

/-!
The numbers of entities mean nothing.

A run that begins with its count further on does the same, with every number that much larger.  As
long as the counts stay below the number of entity numbers, that follows from lockstep for the shift
by the gap.  How far the first run counts is not known before, so lockstep is used twice: at first
for the rotation of all entity numbers, which holds wherever the counts end and shows that they end
as far apart as they began.
-/

namespace RigidScene

namespace Lockstep

/-- The same run with the count further on. -/
def later (settings : Settings) (gap : Nat) (number : EntityId → EntityId)
    (injective : Function.Injective number) : Lockstep where
  first := settings
  second := settings
  looser := ⟨Nat.le_refl _, .inl rfl⟩
  gap := gap
  number := number
  injective := injective

end Lockstep

/-- Settings do not differ from themselves in a limit. -/
theorem EvalError.not_ofLimit (settings : Settings) (e : EvalError) :
    ¬ e.OfLimit settings settings := by
  cases e with
  | stackOverflow depth limit => exact Nat.lt_irrefl _
  | duplicateLabel name => exact fun differs => differs rfl
  | _ => exact id

namespace EntityId

/-- The number `gap` behind a number, where zero comes behind the last one. -/
def rotate (gap id_ : Nat) : Nat :=
  if id_ < UInt64.size then (id_ + gap) % UInt64.size else id_

theorem rotate_injective (gap : Nat) : Function.Injective (rotate gap) := by
  intro i j same
  simp only [rotate, UInt64.size] at same
  split at same <;> split at same <;> omega

theorem rotate_ofCount (gap count : Nat) : rotate gap (ofCount count) = ofCount (count + gap) := by
  have small : ofCount count < UInt64.size := Nat.mod_lt _ (by decide)
  rw [rotate, if_pos small]
  exact Nat.mod_add_mod count _ gap

theorem shift_injective (gap : Nat) : Function.Injective fun id_ : EntityId => id_ + gap :=
  fun _ _ => Nat.add_right_cancel

/-- While the further count is small enough, nothing comes around. -/
theorem shift_ofCount {gap count : Nat} (small : count + gap < UInt64.size) :
    ofCount count + gap = ofCount (count + gap) := by
  rw [ofCount, ofCount, Nat.mod_eq_of_lt small, Nat.mod_eq_of_lt (by omega)]

end EntityId

section Opacity

variable {settings : Settings} {program : Node} {run : Run} {gap : Nat}

/-- The counts of two runs of a program are as far apart in the end as in the beginning. -/
theorem ofNode_counts (settings : Settings) (program : Node) (run : Run) (gap : Nat) :
    (Scene.ofNode settings program (run.ahead gap)).2 =
      (Scene.ofNode settings program run).2.ahead gap := by
  have follows := Lockstep.ofNode_follow
    (.later settings gap (EntityId.rotate gap) (EntityId.rotate_injective gap)) program
  have carries (lower upper : Nat) : (Lockstep.later settings gap (EntityId.rotate gap)
      (EntityId.rotate_injective gap)).Carries lower upper :=
    fun k _ _ => EntityId.rotate_ofCount gap k
  cases ran : Scene.ofNode settings program run with
  | mk answer run' =>
    cases answer with
    | ok scene => exact congrArg Prod.snd ((follows.ok run scene run' ran).2 (carries _ _))
    | error e =>
      have same := (follows.error run e run' ran).2 (carries _ _)
      exact congrArg Prod.snd (same.resolve_left (e.not_ofLimit settings))

/-- A run whose count is further on succeeds or fails as the first one does, and the scene, its value
and the labels that an error lists are the same up to the gap, which is added to every number of an
entity but the root. -/
theorem ofNode_shifts
    (left : (Scene.ofNode settings program (run.ahead gap)).2.nextId ≤ UInt64.size) :
    (∀ scene run', Scene.ofNode settings program run = (.ok scene, run') →
      Scene.ofNode settings program (run.ahead gap) =
        (.ok (scene.renumber (· + gap)), run'.ahead gap)) ∧
    ∀ e run', Scene.ofNode settings program run = (.error e, run') →
      Scene.ofNode settings program (run.ahead gap) =
        (.error (e.renumber (· + gap)), run'.ahead gap) := by
  have follows := Lockstep.ofNode_follow
    (.later settings gap (· + gap) (EntityId.shift_injective gap)) program
  have carries {answer : Except EvalError Scene} {run' : Run}
      (ran : Scene.ofNode settings program run = (answer, run')) :
      (Lockstep.later settings gap (· + gap)
        (EntityId.shift_injective gap)).Carries run.nextId run'.nextId := by
    intro k _ before
    rw [ofNode_counts, ran] at left
    exact EntityId.shift_ofCount (Nat.lt_of_lt_of_le (Nat.add_lt_add_right before gap) left)
  constructor
  · intro scene run' ran
    exact (follows.ok run scene run' ran).2 (carries ran)
  · intro e run' ran
    exact ((follows.error run e run' ran).2 (carries ran)).resolve_left (e.not_ofLimit settings)

end Opacity

/-- Two circles, linked in a block, and a function that has captured one of them; its value ends the
program, unless something else is behind it. -/
def linkedAndCaptured (last : Node) : Node :=
  .composite [
    .label "a" (.body "circle" [.number 0, .number 0, .number 5] []),
    .label "b" (.body "circle" [.number 9, .number 0, .number 5] []),
    .scope (.composite [.constraint (.symbol "a") .rope (.symbol "b") []]) [],
    .label "f" (.function [] (.symbol "a")),
    last]

/-- Begun at the count 8 and not at 1, the program makes the entities 8 to 11, and where it calls a
function that is missing, the error lists the same labels. -/
theorem linkedAndCaptured_shifts :
    ∃ scene e, Scene.ofNode {} (linkedAndCaptured (.symbol "f")) {} =
        (.ok scene, { nextId := 5, nextSerial := 1 }) ∧
      Scene.ofNode {} (linkedAndCaptured (.symbol "f")) { nextId := 8 } =
        (.ok (scene.renumber (· + 7)), { nextId := 12, nextSerial := 1 }) ∧
      Scene.ofNode {} (linkedAndCaptured (.call "g" [])) {} =
        (.error e, { nextId := 5, nextSerial := 1 }) ∧
      Scene.ofNode {} (linkedAndCaptured (.call "g" [])) { nextId := 8 } =
        (.error (e.renumber (· + 7)), { nextId := 12, nextSerial := 1 }) := by
  have runs : (Scene.ofNode {} (linkedAndCaptured (.symbol "f")) {}).1.isOk = true ∧
      (Scene.ofNode {} (linkedAndCaptured (.symbol "f")) {}).2 =
        { nextId := 5, nextSerial := 1 } := by decide +kernel
  have stops : (Scene.ofNode {} (linkedAndCaptured (.call "g" [])) {}).1.isOk = false ∧
      (Scene.ofNode {} (linkedAndCaptured (.call "g" [])) {}).2 =
        { nextId := 5, nextSerial := 1 } := by decide +kernel
  have left (last : Node) (count : (Scene.ofNode {} (linkedAndCaptured last) {}).2 =
      { nextId := 5, nextSerial := 1 }) :
      (Scene.ofNode {} (linkedAndCaptured last) (Run.ahead {} 7)).2.nextId ≤ UInt64.size := by
    rw [ofNode_counts, count]
    decide
  cases ran : Scene.ofNode {} (linkedAndCaptured (.symbol "f")) {} with
  | mk answer run' =>
    cases stopped : Scene.ofNode {} (linkedAndCaptured (.call "g" [])) {} with
    | mk answer' run'' =>
      have first := left _ runs.2
      have second := left _ stops.2
      rw [ran] at runs
      rw [stopped] at stops
      obtain ⟨succeeded, rfl⟩ := runs
      obtain ⟨failed, rfl⟩ := stops
      cases answer with
      | error e => cases succeeded
      | ok scene =>
        cases answer' with
        | ok scene => cases failed
        | error e =>
          exact ⟨scene, e, rfl, (ofNode_shifts first).1 scene _ ran, rfl,
            (ofNode_shifts second).2 e _ stopped⟩

end RigidScene
