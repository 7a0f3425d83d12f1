import RigidScene.Proofs.Syntax.Continuation
import RigidScene.Proofs.Syntax.Spelling

/-!
Two sources with a separator between them.

Behind a newline and a semicolon the statements of another source may follow.  Each statement of
the first source is read as before, and where its last one ends, the semicolon ends it too; then the
statements of the second source are read where they begin.  Blocks come out alike because the
second source does not close a brace that the first one leaves open.
-/

namespace RigidScene.Syntax

open RigidScene.Text
open RigidScene.Text.Parser (Alike Below bind_apply bind_refused discard_apply orElse_apply)

namespace Statements

/-! ## Separators -/

variable {s s' t u b : List Char}

theorem semicolon_apply (s : List Char) :
    (space *> Parser.char ';') s = Parser.char ';' (skip false s) := by
  show (space >>= fun _ => Parser.char ';') s = _
  rw [bind_apply, space_apply]

theorem semicolon_consuming : Parser.Consuming (space *> Parser.char ';') := by
  intro s c rest read
  rw [semicolon_apply] at read
  exact Nat.lt_of_lt_of_le (Parser.consuming_satisfy _ _ _ _ read) (skip_length false s)

theorem semicolons_more (left : skip false s = ';' :: t) : semicolons s = semicolons t := by
  have read : (space *> Parser.char ';') s = .ok ';' t := by
    rw [semicolon_apply, left]
    rfl
  have once := Parser.many_eq _ semicolon_consuming s
  rw [read] at once
  refine (discard_apply _ s).trans (Eq.trans ?_ (discard_apply _ t).symm)
  rw [once]
  simp only
  cases Parser.many (space *> Parser.char ';') t <;> rfl

theorem semicolons_none (other : ∀ t, skip false s ≠ ';' :: t) : semicolons s = .ok () s := by
  have failed : (space *> Parser.char ';') s = .fail := by
    rw [semicolon_apply]
    cases left : skip false s with
    | nil => rfl
    | cons c t =>
      refine if_neg fun same => other t ?_
      rw [left, of_decide_eq_true same]
  have once := Parser.many_eq _ semicolon_consuming s
  rw [failed] at once
  exact (discard_apply _ s).trans (by rw [once])

/-- Where a text goes on with a semicolon, what is left behind it is shorter. -/
theorem shorter_of_skip {c : Char} (left : skip false s = c :: t) : t.length < s.length := by
  have shorter := skip_length false s
  rw [left] at shorter
  exact shorter

theorem semicolons_ok (s : List Char) :
    ∃ rest, semicolons s = .ok () rest ∧ rest.length ≤ s.length := by
  induction size : s.length using Nat.strongRecOn generalizing s with
  | ind size ih =>
    by_cases more : ∃ t, skip false s = ';' :: t
    · obtain ⟨t, left⟩ := more
      have less := shorter_of_skip left
      obtain ⟨rest, read, shorter⟩ := ih t.length (size ▸ less) t rfl
      exact ⟨rest, (semicolons_more left).trans read, by omega⟩
    · exact ⟨s, semicolons_none (not_exists.mp more), by omega⟩

theorem terminator_apply (s : List Char) : terminator s =
    match skip false s with
    | [] => .ok () []
    | c :: t => if c = ';' then semicolons t else if c = '}' then .ok () (c :: t) else .fail := by
  show (space >>= fun _ => Parser.oneOf [Parser.char ';' *> semicolons,
    Parser.ahead (Parser.char '}'), Parser.atEnd]) s = _
  rw [bind_apply, space_apply]
  cases skip false s with
  | nil => rfl
  | cons c t =>
    obtain ⟨rest, read, _⟩ := semicolons_ok t
    simp only [Parser.oneOf, List.foldr, orElse_apply, seqRight_eq_bind, bind_apply, Parser.char,
      Parser.satisfy, Parser.ahead, Parser.atEnd, Parser.failure, decide_eq_true_eq]
    by_cases semicolon : c = ';'
    · simp only [semicolon, if_true, read]
    · by_cases brace : c = '}' <;> simp [semicolon, brace]

/-- Where a statement may begin: in both texts at the same place, or, where nothing but layout is
left of the first one, in the second one at `b`. -/
inductive Seam (u b s s' : List Char) : Prop where
  | within (more : skip false s ≠ []) (continues : Continues u s s')
  | behind (blank : skip false s = []) (same : s' = b)

section Seams

variable (first : semicolons u = .ok () b)

include first

theorem semicolons_seam (continues : Continues u s s') :
    (semicolons s).Matches (Seam u b) s s' 0 (semicolons s') := by
  induction size : s.length using Nat.strongRecOn generalizing s s' with
  | ind size ih =>
    by_cases blank : skip false s = []
    · have left := continues.skip_nil blank
      obtain ⟨rest, read, shorter⟩ := semicolons_ok u
      rw [first] at read
      cases read
      have less := shorter_of_skip left
      rw [semicolons_none (by simp [blank]), semicolons_more left, first]
      exact .ok (Nat.le_refl _) (by omega) (.behind blank rfl)
    by_cases more : ∃ t, skip false s = ';' :: t
    · obtain ⟨t, left⟩ := more
      have shorter := shorter_of_skip left
      have shorter' := shorter_of_skip (continues.skip_cons left)
      rw [semicolons_more left, semicolons_more (continues.skip_cons left)]
      exact (ih t.length (size ▸ shorter) (continues.behind_semicolon left) rfl).mono
        fun _ _ seam read read' => ⟨seam, by omega, by omega⟩
    · have other' : ∀ t, skip false s' ≠ ';' :: t := by
        intro t left'
        rw [continues.skip_apply, if_neg blank] at left'
        obtain ⟨c, rest, left⟩ := List.exists_cons_of_ne_nil blank
        rw [left] at left'
        obtain ⟨rfl, _⟩ := List.cons_eq_cons.mp left'
        exact more ⟨rest, left⟩
      rw [semicolons_none (not_exists.mp more), semicolons_none other']
      exact .ok (Nat.le_refl _) (Nat.le_refl _) (.within blank continues)

theorem terminator_seam : Alike (Continues u) (Seam u b) 0 terminator terminator := by
  intro s s' continues
  cases left : skip false s with
  | nil =>
    have left' := continues.skip_nil left
    have outcome := semicolons_seam first continues
    rw [terminator_apply, terminator_apply, left', left]
    rw [semicolons_none (by simp [left]), semicolons_more left'] at outcome
    simp only [if_true]
    generalize semicolons u = o at outcome ⊢
    cases outcome with
    | ok _ shorter' seam =>
      refine .ok (Nat.zero_le _) shorter' ?_
      cases seam with
      | within more _ => exact absurd left more
      | behind _ same => exact .behind rfl same
  | cons c t =>
    have shorter := shorter_of_skip left
    have shorter' := shorter_of_skip (continues.skip_cons left)
    rw [terminator_apply, terminator_apply, continues.skip_cons left, left]
    by_cases semicolon : c = ';'
    · subst semicolon
      simp only [if_true]
      exact (semicolons_seam first (continues.behind_semicolon left)).mono
        fun _ _ seam read read' => ⟨seam, by omega, by omega⟩
    by_cases brace : c = '}'
    · subst brace
      simp only [semicolon, if_false, if_true]
      have after := continues.skipped
      rw [continues.skip_cons left, left] at after
      refine .ok shorter shorter' (.within ?_ after)
      rw [skip_stop rfl (by rintro _ ⟨⟩)]
      exact List.cons_ne_nil _ _
    · simp only [semicolon, brace, if_false]
      exact .fail

end Seams

/-! ## Statements -/

/-- The first list of statements ends within its text, and the second one ends there too; or the
text is over, and `ts` follow up to `e`. -/
inductive Resumes (u : List Char) (ts : List Tree) (e s s' : List Char) :
    Outcome (List Tree) → Outcome (List Tree) → Prop where
  | within {vs r r'} (shorter : r.length ≤ s.length) (shorter' : r'.length ≤ s'.length)
    (more : skip false r ≠ []) (continues : Continues u r r') :
      Resumes u ts e s s' (.ok vs r) (.ok vs r')
  | behind {vs r} (blank : skip false r = []) : Resumes u ts e s s' (.ok vs r) (.ok (vs ++ ts) e)
  | abort {r r'} : Resumes u ts e s s' (.abort r) (.abort r')

/-- Read with a parser for primary expressions, the text is a whole program: semicolons up to `b`,
statements up to `e`, and layout. -/
structure Whole (p : Parser Tree) (u : List Char) (ts : List Tree) (b e : List Char) : Prop where
  first : semicolons u = .ok () b
  items : Parser.many (item p) b = .ok ts e
  blank : skip false e = []

theorem Whole.shorter {p : Parser Tree} {ts : List Tree} {e : List Char}
    (whole : Whole p u ts b e) : b.length ≤ u.length := by
  obtain ⟨rest, read, shorter⟩ := semicolons_ok u
  rw [whole.first] at read
  cases read
  exact shorter

theorem Resumes.mono {ts : List Tree} {e : List Char} {o o' : Outcome (List Tree)}
    (resumes : Resumes u ts e t t' o o') (shorter : t.length ≤ s.length)
    (shorter' : t'.length ≤ s'.length) : Resumes u ts e s s' o o' := by
  cases resumes with
  | within less less' more continues =>
    exact .within (Nat.le_trans less shorter) (Nat.le_trans less' shorter') more continues
  | behind blank => exact .behind blank
  | abort => exact .abort

theorem statements_apply (p : Parser Tree) (read : semicolons s = .ok () t) :
    statements p s = Parser.many (item p) t := by
  refine (bind_apply semicolons (fun _ => Parser.many (item p)) s).trans ?_
  rw [read]

theorem item_apply (p : Parser Tree) (s : List Char) :
    item p s = (statement p <* terminator) (skip false s) := by
  have grouped : item p = space >>= fun _ => (statement p <* terminator) := by
    simp only [item, seqRight_eq_bind, seqLeft_eq_bind, bind_assoc]
  rw [grouped, bind_apply, space_apply]

/-- No item begins in front of what begins no statement. -/
theorem item_idle {p : Parser Tree} (waits : Waits p) (idle : Idle (skip false s)) :
    item p s = .fail := by
  rw [item_apply]
  exact bind_refused (waits.statement _ idle)

theorem item_blank {p : Parser Tree} (waits : Waits p) (blank : skip false s = []) :
    item p s = .fail := by
  refine item_idle waits ?_
  rw [blank]
  exact idle_nil

/-- The end of a block. -/
def closing (ts : List Tree) : Parser (List Tree) := do
  space
  let _ ← Parser.char '}'
  return ts

theorem block_eq (p : Parser Tree) :
    block p = Parser.char '{' >>= fun _ => statements p >>= closing := by
  simp only [block, seqRight_eq_bind, seqLeft_eq_bind, bind_assoc, pure_bind]
  rfl

theorem closing_blank (ts : List Tree) (blank : skip false s = []) : closing ts s = .fail := by
  rw [closing, bind_apply, space_apply, blank]
  rfl

section Loop

variable {m m' : Nat} {p q : Parser Tree}
  (alike : Alike (Below (Continues u) m m') (Below (Continues u) m m') 1 p q)
  (idle : Waits p) (waits : Waits q) {ts : List Tree} {e : List Char}
  (whole : Whole q u ts b e)

include alike waits whole

theorem item_seam (related : Below (Continues u) m m' s s') :
    (item p s).Matches (Seam u b) s s' 1 (item q s') := by
  have tokens := (tokens_continues (u := u)).below m m'
  have begun := tokens.space.seqRight_last (tokens.statement alike waits)
  refine (begun.seqLeft ?_) s s' related
  exact (terminator_seam whole.first).mono (Nat.le_refl 0) (fun _ _ => And.left) fun _ _ => id

include idle

theorem items_resume (seam : Seam u b s s') (short : s.length < m) (short' : s'.length < m') :
    Resumes u ts e s s' (Parser.many (item p) s) (Parser.many (item q) s') := by
  -- On the length of the first text: the second one gets shorter along with it until it is at `b`,
  -- where its own statements are known.
  induction size : s.length using Nat.strongRecOn generalizing s s' with
  | ind size ih =>
    cases seam with
    | behind blank same =>
      subst same
      rw [whole.items, Parser.many, item_blank idle blank]
      exact .behind blank
    | within more continues =>
      have outcome := item_seam alike waits whole ⟨continues, short, short'⟩
      rw [Parser.many, Parser.many]
      generalize item p s = o at outcome ⊢
      generalize item q s' = o' at outcome ⊢
      cases outcome with
      | @ok a mid mid' read read' seam =>
        simp only [Nat.lt_of_succ_le read, Nat.lt_of_succ_le read', if_true]
        have others := (ih mid.length (by omega) seam (by omega) (by omega) rfl).mono
          (Nat.le_of_succ_le read) (Nat.le_of_succ_le read')
        generalize Parser.many (item p) mid = o at others ⊢
        generalize Parser.many (item q) mid' = o' at others ⊢
        cases others with
        | within less less' more continues => exact .within less less' more continues
        | behind blank => exact .behind blank
        | abort => exact .abort
      | fail => exact .within (Nat.le_refl _) (Nat.le_refl _) more continues
      | abort => exact .abort

theorem statements_resume (related : Below (Continues u) m m' s s') :
    Resumes u ts e s s' (statements p s) (statements q s') := by
  obtain ⟨continues, short, short'⟩ := related
  have outcome := semicolons_seam whole.first continues
  obtain ⟨rest, read, less⟩ := semicolons_ok s
  rw [read] at outcome
  generalize read' : semicolons s' = o' at outcome
  cases outcome with
  | ok _ less' seam =>
    rw [statements_apply p read, statements_apply q read']
    exact (items_resume alike idle waits whole seam (by omega) (by omega)).mono less less'

theorem block_continues {U : List Char → List Char → Prop}
    (opening : Alike U (Below (Continues u) m m') 1 (Parser.char '{') (Parser.char '{')) :
    Alike U (Below (Continues u) m m') 1 (block p) (block q) := by
  have tokens := (tokens_continues (u := u)).below m m'
  have brace : Alike (Continues u) (Continues u) 1 (Parser.char '}') (Parser.char '}') :=
    satisfy_continues (plain_char rfl)
  rw [block_eq, block_eq]
  refine opening.bind ?_
  rintro _ t t' ⟨continues, short, short'⟩
  have outcome := statements_resume alike idle waits whole ⟨continues, short, short'⟩
  rw [bind_apply, bind_apply]
  generalize statements p t = o at outcome ⊢
  generalize statements q t' = o' at outcome ⊢
  cases outcome with
  | @within vs r r' less less' more continues =>
    have closed : Alike (Below (Continues u) m m') (Below (Continues u) m m') 0
        (closing vs) (closing vs) :=
      tokens.space.bind fun _ => (brace.below m m').loose.bind fun _ => .pure vs
    exact (closed r r' ⟨continues, by omega, by omega⟩).mono
      fun _ _ left read read' => ⟨left, by omega, by omega⟩
  | @behind vs r blank =>
    -- Neither text has the closing brace: the first one is over, and `u` is a whole program.
    simp only [closing_blank _ blank, closing_blank _ whole.blank]
    exact .fail
  | abort => exact .abort

end Loop

theorem primary_continues {ts : List Tree} {e : List Char} (whole : Whole primary u ts b e) :
    Alike (Continues u) (Continues u) 1 primary primary := by
  refine Alike.knot (R := fun _ : Unit => Continues u) (S := fun _ => Continues u) waits_primary
    (fun _ s s' p q continues alike waits agrees => ?_) ()
  have wait : Waits q := fun t idle => (waits t idle).2
  have still : Waits p := fun t idle => (waits t idle).1
  have opening : Alike (Continues u) (Continues u) 1 (Parser.char '{') (Parser.char '{') :=
    satisfy_continues (plain_char rfl)
  -- Inside of blocks the second parser is a bounded one, but `u` is short enough for it.
  have short : u.length < s'.length := by
    obtain rfl | ⟨_, rfl⟩ := continues.joined
    · rw [List.length_append, List.length_cons, List.length_cons]
      omega
    · exact Nat.lt_succ_self _
  have inside : Whole q u ts b e :=
    ⟨whole.first, items_local agrees wait (Nat.lt_of_le_of_lt whole.shorter short) whole.items,
      whole.blank⟩
  exact (tokens_continues.enters continues).primaryStep (tokens_continues.below _ _) (alike ()) wait
    (block_continues (alike ()) still wait inside (opening.enter continues))
    (block_continues (alike ()) still wait inside (opening.below _ _))

/-! ## Whole sources -/

theorem program_iff (s : List Char) (ts : List Tree) :
    program s = .ok ts [] ↔ ∃ e, statements primary s = .ok ts e ∧ skip false e = [] := by
  have parts : program s = (statements primary >>= fun ts => space >>= fun _ => pure ts) s := rfl
  rw [parts, bind_apply]
  cases statements primary s with
  | ok vs e => simp [bind_apply, space_apply]
  | fail => simp
  | abort rest => simp

theorem whole_of {ts : List Tree} {e : List Char} (read : statements primary s = .ok ts e)
    (blank : skip false e = []) : ∃ b, Whole primary s ts b e := by
  obtain ⟨b, first, _⟩ := semicolons_ok s
  exact ⟨b, first, (statements_apply primary first).symm.trans read, blank⟩

/-- Layout before the first item does not matter. -/
theorem items_layout (same : skip false s = skip false t) {ts : List Tree} {e : List Char}
    (read : Parser.many (item primary) s = .ok ts e) :
    ∃ e', Parser.many (item primary) t = .ok ts e' ∧ skip false e' = skip false e := by
  have one := Parser.many_eq _ item_consuming s
  have two := Parser.many_eq _ item_consuming t
  rw [read, item_apply, same, ← item_apply] at one
  cases next : item primary t with
  | ok a rest =>
    rw [next] at one two
    exact ⟨e, two.trans one.symm, rfl⟩
  | fail =>
    rw [next] at one two
    cases one
    exact ⟨t, two, same.symm⟩
  | abort rest =>
    rw [next] at one
    cases one

/-- Nor does it matter before all statements. -/
theorem statements_layout (same : skip false s = skip false t) {ts : List Tree} {e : List Char}
    (read : statements primary s = .ok ts e) :
    ∃ e', statements primary t = .ok ts e' ∧ skip false e' = skip false e := by
  by_cases more : ∃ r, skip false s = ';' :: r
  · obtain ⟨r, left⟩ := more
    obtain ⟨b, first, _⟩ := semicolons_ok r
    have here := statements_apply primary ((semicolons_more left).trans first)
    have there := statements_apply primary ((semicolons_more (same ▸ left)).trans first)
    exact ⟨e, there.trans (here.symm.trans read), rfl⟩
  · have none := not_exists.mp more
    rw [statements_apply primary (semicolons_none none)] at read
    rw [statements_apply primary (semicolons_none (same ▸ none))]
    exact items_layout same read

/-- Two programs with a semicolon on a line of its own between them are one program. -/
theorem program_append {ts vs : List Tree} (first : program s = .ok ts [])
    (second : program t = .ok vs []) :
    program (s ++ '\n' :: ';' :: '\n' :: t) = .ok (ts ++ vs) [] := by
  obtain ⟨e, read, ends⟩ := (program_iff s ts).mp first
  obtain ⟨e', later, blank⟩ := (program_iff t vs).mp second
  obtain ⟨e', later, same⟩ := statements_layout (skip_blank (c := '\n') rfl t).symm later
  obtain ⟨b, whole⟩ := whole_of later (same.trans blank)
  have continues : Continues ('\n' :: t) s (s ++ '\n' :: ';' :: '\n' :: t) :=
    ⟨.inl rfl, program_closed first⟩
  have alike := (primary_continues whole).below (s.length + 1)
    ((s ++ '\n' :: ';' :: '\n' :: t).length + 1)
  have outcome := statements_resume alike waits_primary waits_primary whole
    ⟨continues, Nat.lt_succ_self _, Nat.lt_succ_self _⟩
  rw [read] at outcome
  apply (program_iff _ _).mpr
  generalize statements primary _ = o' at outcome ⊢
  cases outcome with
  | within _ _ more _ => exact absurd ends more
  | behind => exact ⟨e', rfl, whole.blank⟩

end Statements

/-- The source in the statement notation is read, to a composite of the statements. -/
theorem read_statements_iff (source : List Char) (tree : Tree) :
    SourceForm.statements.read source = .ok tree ↔
      ∃ ts, Statements.program source = .ok ts [] ∧ tree = Tree.branch "composite" ts := by
  unfold SourceForm.read
  constructor
  · intro read
    cases parsed : readAll Statements.program source with
    | error e => rw [parsed] at read; cases read
    | ok ts =>
      rw [parsed] at read
      cases read
      exact ⟨ts, readAll_ok parsed, rfl⟩
  · rintro ⟨ts, read, rfl⟩
    have all : readAll Statements.program source = .ok ts := by
      rw [readAll, read]
    rw [all]
    rfl

/-- **Concatenation of sources.**  If two sources in the statement notation are accepted, so is the
first one with a semicolon on a line of its own and the second one behind it, and its statements are
the statements of the two. -/
theorem read_append {first second : List Char} {one two : Tree}
    (accepted : SourceForm.statements.read first = .ok one)
    (accepted_later : SourceForm.statements.read second = .ok two) :
    SourceForm.statements.read (first ++ "\n;\n".toList ++ second) =
      .ok (Tree.branch "composite" (one.children ++ two.children)) := by
  obtain ⟨ts, read, rfl⟩ := (read_statements_iff first one).mp accepted
  obtain ⟨vs, later, rfl⟩ := (read_statements_iff second two).mp accepted_later
  rw [List.append_assoc]
  exact (read_statements_iff _ _).mpr ⟨_, Statements.program_append read later, rfl⟩

/-- A source that ends inside a comment, and one that begins with a comment and a semicolon. -/
theorem commentedSources_appended :
    ∃ one two, SourceForm.statements.read "hub // \"hub; rim".toList = .ok one ∧
      SourceForm.statements.read "// hub\n; hub -- rim".toList = .ok two ∧
      SourceForm.statements.read
          ("hub // \"hub; rim".toList ++ "\n;\n".toList ++ "// hub\n; hub -- rim".toList) =
        .ok (Tree.branch "composite" (one.children ++ two.children)) ∧
      one.children.map Tree.tag = ["symbol"] ∧ two.children.map Tree.tag = ["constraint"] := by
  have first : (SourceForm.statements.read "hub // \"hub; rim".toList).toOption.map
      (fun one => one.children.map Tree.tag) = some ["symbol"] := by decide +kernel
  have second : (SourceForm.statements.read "// hub\n; hub -- rim".toList).toOption.map
      (fun two => two.children.map Tree.tag) = some ["constraint"] := by decide +kernel
  cases one : SourceForm.statements.read "hub // \"hub; rim".toList with
  | error e =>
    rw [one] at first
    cases first
  | ok tree =>
    cases two : SourceForm.statements.read "// hub\n; hub -- rim".toList with
    | error e =>
      rw [two] at second
      cases second
    | ok tree' =>
      rw [one] at first
      rw [two] at second
      exact ⟨tree, tree', rfl, rfl, read_append one two, Option.some.inj first,
        Option.some.inj second⟩

end RigidScene.Syntax
