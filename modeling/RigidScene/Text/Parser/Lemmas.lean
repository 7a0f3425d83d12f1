import RigidScene.Text.Parser

/-!
Laws of parsers.

`bind_apply` and `orElse_apply` say what the two ways to combine parsers do at a text, and parsers
form a monad.  `many_eq` and `knot_eq` are the equations of the two recursive parsers, with the
check for progress replaced by what it guards: a parser that is `Consuming` leaves a shorter text.
-/

namespace RigidScene.Text.Parser

variable {α β : Type}

@[simp] theorem pure_apply (a : α) (s : List Char) : (pure a : Parser α) s = .ok a s := rfl

theorem bind_apply (p : Parser α) (f : α → Parser β) (s : List Char) :
    (p >>= f) s =
      match p s with
      | .ok a rest => f a rest
      | .fail => .fail
      | .abort rest => .abort rest := rfl

theorem orElse_apply (p q : Parser α) (s : List Char) :
    orElse p q s =
      match p s with
      | .fail => q s
      | o => o := rfl

instance : LawfulMonad Parser :=
  LawfulMonad.mk' Parser
    (fun p => by
      funext s
      change (p >>= fun a => pure (id a)) s = p s
      rw [bind_apply]
      cases p s <;> rfl)
    (fun _ _ => rfl)
    (fun p f g => by
      funext s
      simp only [bind_apply]
      cases p s <;> rfl)

section Sequences

variable {p : Parser α} {q : Parser β} {f : α → Parser β} {s rest last : List Char} {a : α} {b : β}

theorem bind_read (first : p s = .ok a rest) : (p >>= f) s = f a rest := by
  rw [bind_apply, first]

theorem bind_refused (first : p s = .fail) : (p >>= f) s = .fail := by
  rw [bind_apply, first]

theorem map_read {f : α → β} (first : p s = .ok a rest) : (f <$> p) s = .ok (f a) rest := by
  rw [map_eq_pure_bind, bind_apply, first]
  rfl

theorem map_refused {f : α → β} (first : p s = .fail) : (f <$> p) s = .fail := by
  rw [map_eq_pure_bind, bind_apply, first]

theorem seqRight_read (first : p s = .ok a rest) : (p *> q) s = q rest :=
  bind_read first

theorem seqRight_refused (first : p s = .fail) : (p *> q) s = .fail :=
  bind_refused first

theorem seqLeft_read (first : p s = .ok a rest) (second : q rest = .ok b last) :
    (p <* q) s = .ok a last :=
  (bind_read first).trans (bind_read second)

theorem seqLeft_refused (first : p s = .fail) : (p <* q) s = .fail :=
  bind_refused first

end Sequences

theorem discard_apply (p : Parser α) (s : List Char) :
    discard p s =
      match p s with
      | .ok _ rest => .ok () rest
      | .fail => .fail
      | .abort rest => .abort rest := rfl

theorem takeWhile1_apply (accepts : Char → Bool) (c : Char) (s : List Char) :
    takeWhile1 accepts (c :: s) =
      if accepts c then .ok (c :: s.takeWhile accepts) (s.dropWhile accepts) else .fail := by
  simp only [takeWhile1, seq_eq_bind_map, map_eq_pure_bind, bind_apply, satisfy]
  cases accepts c <;> rfl

theorem opt_apply (p : Parser α) (s : List Char) :
    opt p s =
      match p s with
      | .ok a rest => .ok (some a) rest
      | .fail => .ok none s
      | .abort rest => .abort rest := by
  rw [opt, orElse_apply, map_eq_pure_bind, bind_apply]
  cases p s <;> rfl

section Refusals

variable {accepts : Char → Bool} {rest : List Char}

theorem takeWhile1_other (other : ∀ c ∈ rest.head?, accepts c = false) :
    takeWhile1 accepts rest = .fail := by
  cases rest with
  | nil => rfl
  | cons c rest => rw [takeWhile1_apply, other c rfl, if_neg Bool.false_ne_true]

theorem satisfy_other (other : ∀ c ∈ rest.head?, accepts c = false) :
    satisfy accepts rest = .fail := by
  cases rest with
  | nil => rfl
  | cons c rest => exact if_neg (by rw [other c rfl]; exact Bool.false_ne_true)

theorem char_other {c : Char} (other : ∀ d ∈ rest.head?, d ≠ c) : char c rest = .fail :=
  satisfy_other fun d first => decide_eq_false (other d first)

end Refusals

theorem text_cons (c : Char) (cs : List Char) : text (c :: cs) = char c *> text cs := by
  funext s
  cases s with
  | nil => rfl
  | cons d rest =>
    show (if d = c then text cs rest else .fail) = (char c >>= fun _ => text cs) (d :: rest)
    by_cases same : d = c <;> simp [bind_apply, char, satisfy, same]

/-- Whatever the parser leaves is shorter than what it is given. -/
def Consuming (p : Parser α) : Prop :=
  ∀ s a rest, p s = .ok a rest → rest.length < s.length

theorem consuming_satisfy (accepts : Char → Bool) : Consuming (satisfy accepts) := by
  intro s c rest e
  cases s with
  | nil => cases e
  | cons d ds =>
    simp only [satisfy] at e
    split at e
    · cases e; exact Nat.lt_succ_self _
    · cases e

theorem many_eq (p : Parser α) (hp : Consuming p) (s : List Char) :
    many p s =
      match p s with
      | .ok a rest =>
        match many p rest with
        | .ok as rest => .ok (a :: as) rest
        | .fail => .fail
        | .abort rest => .abort rest
      | .fail => .ok [] s
      | .abort rest => .abort rest := by
  rw [many]
  cases e : p s with
  | ok a rest =>
    refine (if_pos (hp s a rest e)).trans ?_
    change _ =
      match many p rest with
      | .ok as rest => Outcome.ok (a :: as) rest
      | .fail => .fail
      | .abort rest => .abort rest
    cases many p rest <;> rfl
  | fail => rfl
  | abort rest => rfl

/-- An item that has been read is put before the others. -/
theorem many_read {p : Parser α} {s rest last : List Char} {a : α} {as : List α}
    (read : p s = .ok a rest) (shorter : rest.length < s.length)
    (others : many p rest = .ok as last) : many p s = .ok (a :: as) last := by
  rw [many, read]
  refine (if_pos shorter).trans ?_
  rw [others]

theorem many_stop {p : Parser α} {s : List Char} (failed : p s = .fail) : many p s = .ok [] s := by
  rw [many, failed]

/-- A list that has been read is empty where no item can be read, or begins with an item. -/
theorem many_ok {p : Parser α} {s rest : List Char} {as : List α} (read : many p s = .ok as rest) :
    (as = [] ∧ rest = s ∧ p s = .fail) ∨
      ∃ a mid others, as = a :: others ∧ p s = .ok a mid ∧ mid.length < s.length ∧
        many p mid = .ok others rest := by
  rw [many] at read
  cases first : p s with
  | ok a mid =>
    rw [first] at read
    by_cases shorter : mid.length < s.length
    · simp only [shorter, if_true] at read
      cases others : many p mid with
      | ok bs last =>
        rw [others] at read
        cases read
        exact .inr ⟨a, mid, bs, rfl, rfl, shorter, others⟩
      | fail => rw [others] at read; cases read
      | abort last => rw [others] at read; cases read
    · simp only [shorter, if_false] at read
      cases read
  | fail =>
    rw [first] at read
    cases read
    exact .inl ⟨rfl, rfl, rfl⟩
  | abort mid => rw [first] at read; cases read

/-- Items that are not read in vain are read up to one that fails, or is aborted. -/
theorem many_last {p : Parser α} (consuming : Consuming p) (s : List Char) :
    (∃ as rest, many p s = .ok as rest ∧ p rest = .fail) ∨ ∃ rest, many p s = .abort rest := by
  induction size : s.length using Nat.strongRecOn generalizing s with
  | ind size ih =>
    rw [many_eq p consuming]
    cases first : p s with
    | ok a mid =>
      have shorter := consuming s a mid first
      obtain ⟨as, rest, read, failed⟩ | ⟨rest, aborted⟩ := ih mid.length (size ▸ shorter) mid rfl
      · exact .inl ⟨a :: as, rest, by simp only [read], failed⟩
      · exact .inr ⟨rest, by simp only [aborted]⟩
    | fail => exact .inl ⟨[], s, rfl, first⟩
    | abort rest => exact .inr ⟨rest, rfl⟩

/-- A grammar is given itself on shorter texts. -/
theorem knot_eq (step : Parser α → Parser α) (s : List Char) :
    knot step s = step (fun t => if t.length < s.length then knot step t else .fail) s := by
  rw [knot]

end RigidScene.Text.Parser
