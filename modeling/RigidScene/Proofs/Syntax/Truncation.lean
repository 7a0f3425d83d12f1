import RigidScene.Proofs.Syntax.StatementEnds

/-!
The part of a source that has been read before an error.

A source that stops being read is cut where the error is reported, behind the last statement and the
layout there.  Each statement before the cut is read as before, because it ends where a semicolon or
a closing brace stands, and nothing it depends on lies behind that (`item_ends`).  So the part
before the cut is a source of just these statements (`read_before_error`).
-/

namespace RigidScene.Syntax

open RigidScene.Text
open RigidScene.Text.Parser (bind_apply bind_read many_last many_ok many_read many_stop)

namespace Statements

variable {s a e rest : List Char}

/-! ## Semicolons -/

/-- Behind the semicolons there is no other one, and they are read in front of any text that does
not begin with another one. -/
theorem semicolons_cut (read : semicolons s = .ok () rest) :
    (∀ t, skip false rest ≠ ';' :: t) ∧ ∃ x, s = x ++ rest ∧
      ∀ u, (∀ t, skip false u ≠ ';' :: t) → semicolons (x ++ u) = .ok () u := by
  induction size : s.length using Nat.strongRecOn generalizing s with
  | ind size ih =>
    by_cases more : ∃ t, skip false s = ';' :: t
    · obtain ⟨t, left⟩ := more
      have shorter := shorter_of_skip left
      rw [semicolons_more left] at read
      obtain ⟨last, x, rfl, front⟩ := ih t.length (size ▸ shorter) read rfl
      obtain ⟨layout, split, _, before⟩ := skip_split false s
      rw [left] at split before
      refine ⟨last, layout ++ ';' :: x, by simpa using split, fun u other => ?_⟩
      have onward : skip false (layout ++ ';' :: (x ++ u)) = ';' :: (x ++ u) :=
        ((before nofun).2 _).trans (skip_stop rfl (by rintro _ ⟨⟩))
      rw [List.append_assoc, List.cons_append, semicolons_more onward, front u other]
    · have none := not_exists.mp more
      rw [semicolons_none none] at read
      cases read
      exact ⟨none, [], rfl, fun u other => semicolons_none other⟩

/-- No semicolon comes first in a text if none does in a longer one. -/
theorem semicolonless_of_append (none : ∀ t, skip false (s ++ a) ≠ ';' :: t) (t : List Char) :
    skip false s ≠ ';' :: t :=
  fun begins => none (t ++ a) (skip_of_append begins (by decide) a)

/-! ## Statements -/

theorem terminator_semicolon (s : List Char) : terminator (';' :: s) = semicolons s := by
  rw [terminator_apply, skip_stop rfl (by rintro _ ⟨⟩)]
  rfl

theorem terminator_brace (s : List Char) : terminator ('}' :: s) = .ok () ('}' :: s) := by
  rw [terminator_apply, skip_stop rfl (by rintro _ ⟨⟩)]
  rfl

/-- No statement begins at a closing brace. -/
theorem item_brace (s : List Char) : item primary ('}' :: s) = .fail := by
  refine item_idle waits_primary ?_
  rw [skip_stop rfl (by rintro _ ⟨⟩)]
  exact ⟨by rintro _ ⟨⟩; rfl, rfl⟩

/-- A statement in front of two texts is read in front of the first of them.  A closing brace has to
begin the second one, for the statement ends before the brace. -/
theorem item_cut {tree : Tree} (read : item primary s = .ok tree (rest ++ a))
    (more : rest ++ a ≠ []) (unbraced : ∀ w, rest ++ a = '}' :: w → rest = []) :
    ∃ x, s = x ++ rest ++ a ∧ item primary (x ++ rest) = .ok tree rest := by
  obtain ⟨x, t, rfl, stops, ended, same⟩ := item_ends read more
  cases t with
  | nil =>
    rw [terminator_apply] at ended
    injection ended with _ left
    exact absurd left.symm more
  | cons c w =>
    obtain rfl | rfl := stops c rfl
    · rw [terminator_semicolon] at ended
      obtain ⟨last, y, rfl, front⟩ := semicolons_cut ended
      refine ⟨x ++ ';' :: y, by simp, ?_⟩
      rw [List.append_assoc, List.cons_append]
      refine same _ _ (by rintro _ ⟨⟩; exact .inl rfl) ?_
      rw [terminator_semicolon, front rest (semicolonless_of_append last)]
    · rw [terminator_brace] at ended
      injection ended with _ left
      obtain rfl := unbraced w left.symm
      obtain rfl := left
      exact ⟨x, by simp, same [] [] stops_nil (terminator_apply [])⟩

/-- All statements of a list are read from a text that is over where the list ends. -/
theorem items_cut {ts : List Tree} (read : Parser.many (item primary) s = .ok ts e)
    (more : skip false e ≠ []) : ∃ v e', s = v ++ skip false e ∧
      Parser.many (item primary) v = .ok ts e' ∧ skip false e' = [] := by
  induction ts generalizing s with
  | nil =>
    obtain ⟨_, rfl, _⟩ | ⟨_, _, _, wrong, _⟩ := many_ok read
    · obtain ⟨layout, split, blank, _⟩ := skip_split false e
      exact ⟨layout, layout, split, many_stop (item_blank waits_primary blank), blank⟩
    · cases wrong
  | cons tree ts ih =>
    obtain ⟨wrong, _⟩ | ⟨_, r, _, same, first, _, others⟩ := many_ok read
    · cases wrong
    cases same
    obtain ⟨v, e', rfl, read', blank⟩ := ih others
    have unbraced (w : List Char) (brace : v ++ skip false e = '}' :: w) : v = [] := by
      rw [brace, many_stop (item_brace w)] at others
      cases others
      have solid : skip false ('}' :: w) = '}' :: w := skip_stop rfl (by rintro _ ⟨⟩)
      rw [solid] at brace
      exact List.append_left_eq_self.mp brace
    obtain ⟨x, split, item⟩ := item_cut first (by simp [more]) unbraced
    exact ⟨x ++ v, e', split, many_read item (item_consuming _ _ _ item) read', blank⟩

/-! ## Whole sources -/

/-- A program is read up to where no statement can be read, unless it is aborted. -/
theorem program_cases (s : List Char) :
    (∃ ts e, statements primary s = .ok ts e ∧ program s = .ok ts (skip false e) ∧
      item primary e = .fail) ∨ ∃ rest, program s = .abort rest := by
  obtain ⟨b, first, _⟩ := semicolons_ok s
  have parts : program s = (statements primary >>= fun ts => space >>= fun _ => pure ts) s := rfl
  rw [parts, statements_apply primary first]
  obtain ⟨ts, e, read, refused⟩ | ⟨rest, aborted⟩ := many_last item_consuming b
  · have whole := (statements_apply primary first).trans read
    exact .inl ⟨ts, e, read, (bind_read whole).trans (bind_read (space_apply e)), refused⟩
  · have whole := (statements_apply primary first).trans aborted
    refine .inr ⟨rest, ?_⟩
    rw [bind_apply, whole]

/-- The source up to where it stopped being read is a program of the same statements. -/
theorem program_cut {ts : List Tree} (read : statements primary s = .ok ts e)
    (more : skip false e ≠ []) : ∃ x, s = x ++ skip false e ∧ program x = .ok ts [] := by
  obtain ⟨b, first, _⟩ := semicolons_ok s
  rw [statements_apply primary first] at read
  obtain ⟨last, x, rfl, front⟩ := semicolons_cut first
  obtain ⟨v, e', split, items, blank⟩ := items_cut read more
  have semicolons_ := front v (semicolonless_of_append (split ▸ last))
  refine ⟨x ++ v, ?_, (program_iff _ ts).mpr ⟨e', ?_, blank⟩⟩
  · rw [List.append_assoc, ← split]
  · rw [statements_apply primary semicolons_, items]

end Statements

/-- **Before an error.**  Where a source stops being read, the part before that place is a source of
the statements that have been read, and no statement can be read there. -/
theorem read_before_error {source : List Char} {error : ParseError}
    (refused : SourceForm.statements.read source = .error error)
    (unexpected : error.message = "unexpected input (End of file)") :
    ∃ before after ts, source = before ++ after ∧
      error.location = some (Location.ofOffset source (byteLength before)) ∧
      Statements.program source = .ok ts after ∧
      SourceForm.statements.read before = .ok (Tree.branch "composite" ts) ∧
      (Statements.statement Statements.primary <* Statements.terminator) after = .fail := by
  unfold SourceForm.read readAll at refused
  obtain ⟨ts, e, read, whole, failed⟩ | ⟨rest, aborted⟩ := Statements.program_cases source
  · cases left : skip false e with
    | nil =>
      rw [whole, left] at refused
      cases refused
    | cons c after =>
      have more : skip false e ≠ [] := left ▸ List.cons_ne_nil c after
      obtain ⟨before, split, accepted⟩ := Statements.program_cut read more
      refine ⟨before, skip false e, ts, split, ?_, whole, ?_, ?_⟩
      · rw [whole, left] at refused
        cases refused
        rw [← left]
        have length : byteLength source - byteLength (skip false e) = byteLength before := by
          have sum := byteLength_append before (skip false e)
          rw [← split] at sum
          omega
        exact congrArg (fun n => some (Location.ofOffset source n)) length
      · exact (read_statements_iff before _).mpr ⟨ts, accepted, rfl⟩
      · rwa [← Statements.item_apply]
  · rw [aborted] at refused
    cases refused
    have other : ¬ "unexpected input (Digit)" = "unexpected input (End of file)" := by decide
    exact absurd unexpected other

/-- A block and an edge in front of a brace that closes no block. -/
def strayBrace : List Char :=
  "\x7b f(\"\x7d\") \x7d; a -- b // ;\n\x7d c".toList

theorem strayBrace_cut : ∃ error before ts, SourceForm.statements.read strayBrace = .error error ∧
    error.message = "unexpected input (End of file)" ∧ strayBrace = before ++ "\x7d c".toList ∧
    error.location = some (Location.ofOffset strayBrace (byteLength before)) ∧
    SourceForm.statements.read before = .ok (Tree.branch "composite" ts) ∧
    ts.map Tree.tag = ["scope", "constraint"] := by
  have message : (match SourceForm.statements.read strayBrace with
      | .error error => some error.message
      | .ok _ => none) = some "unexpected input (End of file)" := by decide +kernel
  have statements : (match Statements.program strayBrace with
      | .ok ts after => some (ts.map Tree.tag, after)
      | .fail => none
      | .abort _ => none) = some (["scope", "constraint"], "\x7d c".toList) := by decide +kernel
  cases refused : SourceForm.statements.read strayBrace with
  | ok tree =>
    rw [refused] at message
    cases message
  | error error =>
    rw [refused] at message
    have unexpected := Option.some.inj message
    obtain ⟨before, after, ts, split, location, read, accepted, _⟩ :=
      read_before_error refused unexpected
    rw [read] at statements
    obtain ⟨tags, rfl⟩ := Prod.mk.inj (Option.some.inj statements)
    exact ⟨error, before, ts, rfl, unexpected, split, location, accepted, tags⟩

end RigidScene.Syntax
