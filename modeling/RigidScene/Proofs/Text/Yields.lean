import Mathlib.Data.List.TakeWhile
import RigidScene.Text.Parser.Lemmas

/-!
What the values of parsers have in common.

`p.Yields P` says that `P` holds of every value that `p` reads, whatever the text.  There is a rule
for each combinator, so what a grammar yields follows along its definition; `Yields.knot` is the
rule for a grammar that refers to itself.
-/

namespace RigidScene.Text.Parser

variable {α β : Type}

/-- Every value that the parser reads satisfies the predicate. -/
structure Yields (p : Parser α) (P : α → Prop) : Prop where
  value : ∀ s a rest, p s = .ok a rest → P a

/-- The value of a sequence comes from values of its two parts. -/
theorem bind_ok {p : Parser α} {f : α → Parser β} {s rest : List Char} {b : β}
    (h : (p >>= f) s = .ok b rest) : ∃ a mid, p s = .ok a mid ∧ f a mid = .ok b rest := by
  rw [bind_apply] at h
  cases first : p s with
  | ok a mid => exact ⟨a, mid, rfl, by rwa [first] at h⟩
  | fail => rw [first] at h; cases h
  | abort mid => rw [first] at h; cases h

namespace Yields

variable {p q : Parser α} {P Q : α → Prop} {R : β → Prop}

theorem any (p : Parser α) : p.Yields fun _ => True :=
  ⟨fun _ _ _ _ => trivial⟩

theorem mono (yields : p.Yields P) (weaker : ∀ a, P a → Q a) : p.Yields Q :=
  ⟨fun s a rest h => weaker a (yields.value s a rest h)⟩

theorem failure : (failure : Parser α).Yields P := by
  constructor
  intro s a rest h
  cases h

theorem pure {a : α} (holds : P a) : (pure a : Parser α).Yields P := by
  constructor
  intro s b rest h
  cases h
  exact holds

theorem bind {f : α → Parser β} (first : p.Yields P) (rest : ∀ a, P a → (f a).Yields R) :
    (p >>= f).Yields R := by
  constructor
  intro s b last h
  obtain ⟨a, mid, read, later⟩ := bind_ok h
  exact (rest a (first.value s a mid read)).value mid b last later

theorem map {f : α → β} (yields : p.Yields P) (holds : ∀ a, P a → R (f a)) :
    (f <$> p).Yields R :=
  yields.bind fun a read => .pure (holds a read)

/-- The values of two parsers, one after the other, taken together. -/
theorem seq {γ : Type} {f : α → β → γ} {r : Parser β} {S : γ → Prop} (first : p.Yields P)
    (second : r.Yields R) (holds : ∀ a b, P a → R b → S (f a b)) :
    (f <$> p <*> r).Yields S := by
  have applied : (f <$> p).Yields fun g => ∀ b, R b → S (g b) :=
    first.map fun a read b => holds a b read
  apply applied.bind
  intro g both
  exact second.map both

/-- What is read before a value does not matter. -/
theorem behind {r : Parser β} (yields : p.Yields P) : (r *> p).Yields P :=
  (any r).bind fun _ _ => yields

/-- Nor does what is read after it. -/
theorem before {r : Parser β} (yields : p.Yields P) : (p <* r).Yields P :=
  yields.bind fun _ read => (any r).bind fun _ _ => .pure read

theorem orElse (first : p.Yields P) (second : q.Yields P) : (orElse p q).Yields P := by
  constructor
  intro s a rest h
  rw [orElse_apply] at h
  cases read : p s with
  | ok b mid =>
    rw [read] at h
    cases h
    exact first.value s a rest read
  | fail =>
    rw [read] at h
    exact second.value s a rest h
  | abort mid => rw [read] at h; cases h

theorem oneOf {ps : List (Parser α)} (each : ∀ p ∈ ps, p.Yields P) : (oneOf ps).Yields P := by
  induction ps with
  | nil => exact .failure
  | cons p ps ih =>
    obtain ⟨first, others⟩ := List.forall_mem_cons.mp each
    exact first.orElse (ih others)

theorem opt (yields : p.Yields P) : (opt p).Yields fun found => ∀ a ∈ found, P a := by
  apply Yields.orElse
  · apply yields.map
    rintro a read b ⟨⟩
    exact read
  · apply Yields.pure
    rintro a ⟨⟩

theorem required (yields : p.Yields P) : (required p).Yields P := by
  constructor
  intro s a rest h
  unfold Parser.required at h
  cases read : p s with
  | ok b mid =>
    rw [read] at h
    cases h
    exact yields.value s a rest read
  | fail => rw [read] at h; cases h
  | abort mid => rw [read] at h; cases h

theorem satisfy (accepts : Char → Bool) : (satisfy accepts).Yields (accepts · = true) := by
  constructor
  intro s c rest h
  cases s with
  | nil => cases h
  | cons d ds =>
    rw [Parser.satisfy] at h
    split at h
    · rename_i accepted
      cases h
      exact accepted
    · cases h

theorem takeWhile (accepts : Char → Bool) :
    (takeWhile accepts).Yields fun cs => ∀ c ∈ cs, accepts c = true := by
  constructor
  intro s cs rest h
  cases h
  intro c member
  exact List.mem_takeWhile_imp member

theorem takeWhile1 (accepts : Char → Bool) :
    (takeWhile1 accepts).Yields fun cs => cs ≠ [] ∧ ∀ c ∈ cs, accepts c = true := by
  apply (satisfy accepts).seq (takeWhile accepts)
  intro c cs first others
  exact ⟨List.cons_ne_nil c cs, List.forall_mem_cons.mpr ⟨first, others⟩⟩

theorem many (yields : p.Yields P) : Yields (Parser.many p) fun as => ∀ a ∈ as, P a := by
  constructor
  intro s
  induction size : s.length using Nat.strongRecOn generalizing s with
  | ind n ih =>
    intro as rest h
    rw [Parser.many] at h
    cases read : p s with
    | ok a mid =>
      rw [read] at h
      by_cases shorter : mid.length < s.length
      · simp only [shorter, if_true] at h
        cases others : Parser.many p mid with
        | ok bs last =>
          rw [others] at h
          cases h
          have later := ih mid.length (size ▸ shorter) mid rfl bs rest others
          exact List.forall_mem_cons.mpr ⟨yields.value s a mid read, later⟩
        | fail => rw [others] at h; cases h
        | abort last => rw [others] at h; cases h
      · simp only [shorter, if_false] at h
        cases h
    | fail =>
      rw [read] at h
      cases h
      exact List.forall_mem_nil _
    | abort mid => rw [read] at h; cases h

theorem sepBy (yields : p.Yields P) (separator : Parser β) :
    (sepBy p separator).Yields fun as => ∀ a ∈ as, P a := by
  apply Yields.orElse
  · apply yields.seq yields.behind.many
    intro a as first others
    exact List.forall_mem_cons.mpr ⟨first, others⟩
  · exact .pure (List.forall_mem_nil _)

/-- A grammar yields what it yields of itself on shorter texts. -/
theorem knot {step : Parser α → Parser α} (closed : ∀ p : Parser α, p.Yields P → (step p).Yields P) :
    Yields (Parser.knot step) P := by
  constructor
  intro s
  induction size : s.length using Nat.strongRecOn generalizing s with
  | ind n ih =>
    intro a rest h
    rw [knot_eq] at h
    refine (closed _ ⟨?_⟩).value s a rest h
    intro t b last read
    split at read
    · rename_i shorter
      exact ih t.length (size ▸ shorter) t rfl b last read
    · cases read

end Yields

end RigidScene.Text.Parser
