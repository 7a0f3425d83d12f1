import RigidScene.Proofs.Syntax.Rules

/-!
Statements of a text and of itself.

Read at one text twice, the grammar does alike, and so it does with a parser for primary
expressions that is one on short texts only (`items_local`).  Since all tokens go along with
the scan for strings, a source that is read to its end does not end inside a string
(`program_closed`).
-/

namespace RigidScene.Syntax

open RigidScene.Text
open RigidScene.Text.Parser (Alike Below knot_eq)

/-- The two texts are the same, and if every string in it is closed, the condition holds. -/
def Same (C : Prop) (s s' : List Char) : Prop :=
  s' = s ∧ (Closed s → C)

variable {C : Prop}

/-- What a token reads in both texts is as long in both as it has to be. -/
theorem Level.matches {α : Type} {n : Nat} {p : Parser α} (level : Level n p)
    {S : List Char → List Char → Prop} {s s' rest rest' : List Char} {a : α}
    (read : p s = .ok a rest) (read' : p s' = .ok a rest') (related : S rest rest') :
    (p s).Matches S s s' n (p s') := by
  rw [read, read']
  exact .ok (level s a rest read).1 (level s' a rest' read').1 related

theorem Level.same {α : Type} {n : Nat} {p : Parser α} (level : Level n p) :
    Alike (Same C) (Same C) n p p := by
  rintro _ s ⟨rfl, holds⟩
  cases read : p s with
  | ok a rest =>
    obtain ⟨shorter, closed⟩ := level s a rest read
    exact .ok shorter shorter ⟨rfl, holds ∘ closed.mp⟩
  | fail => exact .fail
  | abort rest => exact .abort

namespace Statements

theorem tokens_same : Tokens (Same C) (Same C) where
  anywhere _ _ := id
  satisfy inner := (level_satisfy inner.plain.code).same
  ending inner _ := (level_satisfy inner.plain.code).same
  string := level_string.same
  space := level_space.same
  multiplicative := level_multiplicative.same
  gap s s' related := .inl (level_gap.same s s' related)

/-- A character that begins neither a string nor a comment. -/
theorem char_same {c : Char} (quote : c ≠ '"') (slash : c ≠ '/') :
    Alike (Same C) (Same C) 1 (Parser.char c) (Parser.char c) := by
  have level : Level 1 (Parser.char c) := by
    apply level_satisfy
    intro d same
    obtain rfl := of_decide_eq_true same
    exact ⟨quote, slash⟩
  exact level.same

theorem delimiters_same : Delimiters (Same C) (Same C) where
  semicolon := char_same (by decide) (by decide)
  brace := char_same (by decide) (by decide)
  atEnd := by
    rintro _ s ⟨rfl, holds⟩
    cases s with
    | nil => exact .ok (Nat.le_refl _) (Nat.le_refl _) ⟨rfl, holds⟩
    | cons c s => exact .fail

theorem waits_primary : Waits primary :=
  fun _ => Idle.primary

theorem primary_same : Alike (Same C) (Same C) 1 primary primary := by
  refine Alike.knot (R := fun _ : Unit => Same C) (S := fun _ => Same C) waits_primary
    (fun _ s s' p q related alike waits _ => ?_) ()
  have tokens := (tokens_same (C := C)).below s.length s'.length
  have delimiters := (delimiters_same (C := C)).below s.length s'.length
  have wait : Waits q := fun t idle => (waits t idle).2
  have opening := char_same (C := C) (c := '{') (by decide) (by decide)
  exact (tokens_same.enters related).primaryStep tokens (alike ()) wait
    (delimiters.block tokens (alike ()) wait (opening.enter related))
    (delimiters.block tokens (alike ()) wait (opening.below _ _))

theorem item_consuming : Parser.Consuming (item primary) := by
  intro s t rest read
  have related : Same True s s := ⟨rfl, fun _ => trivial⟩
  obtain ⟨_, _, _, shorter, _⟩ :=
    (delimiters_same.item tokens_same primary_same waits_primary).ok related read
  exact Nat.lt_of_succ_le shorter

/-- A parser that is the one for primary expressions on short texts is alike there. -/
theorem primary_local {q : Parser Tree} {m : Nat} (agrees : ∀ t, t.length < m → q t = primary t) :
    Alike (Below (Same True) m m) (Below (Same True) m m) 1 primary q := by
  rintro _ t ⟨⟨rfl, holds⟩, short, _⟩
  rw [agrees t short]
  exact primary_same.below m m t t ⟨⟨rfl, holds⟩, short, short⟩

/-- It reads the same statements. -/
theorem items_local {q : Parser Tree} {m : Nat} (agrees : ∀ t, t.length < m → q t = primary t)
    (waits : Waits q) {s rest : List Char} {ts : List Tree} (short : s.length < m)
    (read : Parser.many (item primary) s = .ok ts rest) :
    Parser.many (item q) s = .ok ts rest := by
  have alike :=
    (delimiters_same.below m m).items (tokens_same.below m m) (primary_local agrees) waits
  obtain ⟨_, read', ⟨⟨rfl, _⟩, _⟩, _⟩ := alike.ok ⟨⟨rfl, fun _ => trivial⟩, short, short⟩ read
  exact read'

/-- A source that is read to its end does not end inside a string. -/
theorem program_closed {s : List Char} {ts : List Tree} (read : program s = .ok ts []) :
    Closed s := by
  have alike : Alike (Same (Closed s)) (Same (Closed s)) 0 program program :=
    (delimiters_same.statements tokens_same primary_same waits_primary).seqLeft tokens_same.space
  obtain ⟨_, _, ⟨_, holds⟩, _⟩ := alike.ok ⟨rfl, id⟩ read
  exact holds closed_nil

end Statements

end RigidScene.Syntax
