import RigidScene.Proofs.Syntax.Locality

/-!
A text and the same text with more statements behind it.

`Continues u s s'` says that `s'` is the text `s` with a newline, a semicolon and `u` behind it.
Every token does alike at such texts, as long as no string is left open at the end of `s`: nothing
that is read in `s` goes on behind the newline, and what fails at the end of `s` fails at the
newline too.  Layout is the exception, for it reads the newline if it reads the end of `s`; so at
the end of `s` the other text may be at the newline or at the semicolon.
-/

namespace RigidScene.Syntax

open RigidScene.Text
open RigidScene.Text.Parser (Alike)

/-- The second text is the first one with more behind it, where layout at the end of the first one
may have been read on; every string in the first one is closed. -/
structure Continues (u s s' : List Char) : Prop where
  joined : s' = s ++ '\n' :: ';' :: u ∨ s = [] ∧ s' = ';' :: u
  closed : Closed s

namespace Continues

variable {u s s' t : List Char} {c : Char}

/-- At the end of the first text the second one has a newline or a semicolon. -/
theorem nothing (continues : Continues u [] s') :
    ∃ c t, s' = c :: t ∧ (c = '\n' ∨ c = ';') := by
  obtain rfl | ⟨_, rfl⟩ := continues.joined
  · exact ⟨_, _, rfl, .inl rfl⟩
  · exact ⟨_, _, rfl, .inr rfl⟩

/-- Before the end of the first text the second one is no different. -/
theorem some (continues : Continues u s s') (more : s ≠ []) : s' = s ++ '\n' :: ';' :: u :=
  continues.joined.resolve_right fun ⟨empty, _⟩ => more empty

theorem of_level {α : Type} {n : Nat} {p : Parser α} (level : Level n p)
    (continues : Continues u s s') {a : α} {rest : List Char} (read : p s = .ok a rest) :
    Continues u rest (rest ++ '\n' :: ';' :: u) :=
  ⟨.inl rfl, (level s a rest read).2.mpr continues.closed⟩

theorem skip_apply (continues : Continues u s s') : skip false s' =
    if skip false s = [] then ';' :: u else skip false s ++ '\n' :: ';' :: u := by
  obtain rfl | ⟨rfl, rfl⟩ := continues.joined
  · exact skip_append false s u
  · rfl

theorem skip_nil (continues : Continues u s s') (blank : skip false s = []) :
    skip false s' = ';' :: u := by
  rw [continues.skip_apply, if_pos blank]

theorem skip_cons (continues : Continues u s s') (left : skip false s = c :: t) :
    skip false s' = c :: (t ++ '\n' :: ';' :: u) := by
  rw [continues.skip_apply, left]
  rfl

theorem skipped (continues : Continues u s s') : Continues u (skip false s) (skip false s') := by
  refine ⟨?_, (closed_skip false s).mp continues.closed⟩
  rw [continues.skip_apply]
  split
  · rename_i blank
    exact .inr ⟨blank, rfl⟩
  · exact .inl rfl

theorem behind_semicolon (continues : Continues u s s') (left : skip false s = ';' :: t) :
    Continues u t (t ++ '\n' :: ';' :: u) := by
  refine ⟨.inl rfl, ?_⟩
  have closed := continues.skipped.closed
  rw [left] at closed
  exact (closed_code (by decide) (by decide)).mp closed

end Continues

variable {u : List Char}

theorem Plain.refuses {accepts : Char → Bool} (plain : Plain accepts) {c : Char}
    (special : isPlain c = false) : accepts c = false := by
  cases accepted : accepts c with
  | false => rfl
  | true => exact absurd ((plain c accepted).symm.trans special) nofun

namespace Statements

theorem satisfy_continues {accepts : Char → Bool} (plain : Plain accepts) :
    Alike (Continues u) (Continues u) 1 (Parser.satisfy accepts) (Parser.satisfy accepts) := by
  intro s s' continues
  cases s with
  | nil =>
    obtain ⟨c, t, rfl, special⟩ := continues.nothing
    have refused : accepts c = false := by
      rcases special with rfl | rfl <;> exact plain.refuses rfl
    rw [Parser.satisfy, Parser.satisfy, if_neg (by simp [refused])]
    exact .fail
  | cons c s =>
    have level := level_satisfy plain.code
    rw [continues.some (List.cons_ne_nil c s)]
    by_cases accepted : accepts c = true
    · have read : Parser.satisfy accepts (c :: s) = .ok c s := if_pos accepted
      exact level.matches read (if_pos accepted) (continues.of_level level read)
    · rw [List.cons_append, Parser.satisfy, Parser.satisfy, if_neg accepted, if_neg accepted]
      exact .fail

theorem string_continues : Alike (Continues u) (Continues u) 1 string string := by
  intro s s' continues
  cases s with
  | nil =>
    obtain ⟨c, t, rfl, special⟩ := continues.nothing
    have other : c ≠ '"' := by
      rcases special with rfl | rfl <;> decide
    rw [string_other other]
    exact .fail
  | cons c s =>
    rw [continues.some (List.cons_ne_nil c s)]
    by_cases quote : c = '"'
    · subst quote
      obtain ⟨text, rest, rfl, others, closed⟩ := closed_quote continues.closed
      have read := string_quote others rest
      have read' := string_quote others (rest ++ '\n' :: ';' :: u)
      simp only [List.cons_append, List.append_assoc] at read read' ⊢
      exact level_string.matches read read' (continues.of_level level_string read)
    · rw [List.cons_append, string_other quote, string_other quote]
      exact .fail

theorem space_continues : Alike (Continues u) (Continues u) 0 space space :=
  fun s s' continues => level_space.matches (space_apply s) (space_apply s') continues.skipped

theorem multiplicative_continues : Alike (Continues u) (Continues u) 1
    (spaced multiplicativeOperator) (spaced multiplicativeOperator) := by
  intro s s' continues
  cases left : skip false s with
  | nil =>
    have failed : spaced multiplicativeOperator s = .fail := by
      rw [multiplicative_apply, left]
    have failed' : spaced multiplicativeOperator s' = .fail := by
      rw [multiplicative_apply, continues.skip_nil left]
      rfl
    rw [failed, failed']
    exact .fail
  | cons c rest =>
    have left' := continues.skip_cons left
    by_cases operator : (c = '*' || c = '/') = true
    · have read : spaced multiplicativeOperator s = .ok c (skip false rest) := by
        rw [multiplicative_apply, left]
        exact if_pos operator
      have read' : spaced multiplicativeOperator s' =
          .ok c (skip false (rest ++ '\n' :: ';' :: u)) := by
        rw [multiplicative_apply, left']
        exact if_pos operator
      obtain ⟨_, closed⟩ := level_multiplicative _ _ _ read
      have begun : Closed rest :=
        (closed_skip false rest).mpr (closed.mpr continues.closed)
      exact level_multiplicative.matches read read' (Continues.skipped ⟨.inl rfl, begun⟩)
    · have failed : spaced multiplicativeOperator s = .fail := by
        rw [multiplicative_apply, left]
        exact if_neg operator
      have failed' : spaced multiplicativeOperator s' = .fail := by
        rw [multiplicative_apply, left']
        exact if_neg operator
      rw [failed, failed']
      exact .fail

/-- A gap before the end of the first text is one in both. -/
theorem gap_continues {s s' : List Char} (continues : Continues u s s') (more : s ≠ []) :
    (gap s).Matches (Continues u) s s' 1 (gap s') := by
  have after := continues.skipped
  rw [continues.some more] at after ⊢
  cases s with
  | nil => exact absurd rfl more
  | cons c s =>
    rw [List.cons_append] at after ⊢
    by_cases blank : isSpace c = true
    · rw [skip_blank blank, skip_blank blank] at after
      have read (t : List Char) : gap (c :: t) = .ok () (skip false t) := by
        rw [gap_apply, if_pos blank]
      exact level_gap.matches (read s) (read _) after
    · rw [gap_apply, gap_apply, if_neg blank, if_neg blank]
      exact .fail

/-- A gap at the end of the first text may be one in the second, with a semicolon behind it. -/
theorem gap_at_end {s' : List Char} (continues : Continues u [] s') :
    (gap []).Matches (Continues u) [] s' 1 (gap s') ∨
      gap [] = .fail ∧ ∃ rest', gap s' = .ok () rest' ∧ Idle rest' := by
  obtain rfl | ⟨_, rfl⟩ := continues.joined
  · exact .inr ⟨rfl, ';' :: u, (gap_apply _ _).trans rfl, by rintro _ ⟨⟩; rfl, rfl⟩
  · exact .inl .fail

theorem tokens_continues : Tokens (Continues u) (Continues u) where
  anywhere _ _ := id
  satisfy inner := satisfy_continues inner.plain
  ending inner _ := satisfy_continues inner.plain
  string := string_continues
  space := space_continues
  multiplicative := multiplicative_continues
  gap s s' continues := by
    by_cases more : s = []
    · subst more
      exact gap_at_end continues
    · exact .inl (gap_continues continues more)

end Statements

end RigidScene.Syntax
