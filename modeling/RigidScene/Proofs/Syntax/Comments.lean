import RigidScene.Proofs.Syntax.Concatenation

/-!
A source and the same source with a blank in place of each comment.

Every token does alike in the two, for a blank and a comment both stop a word and both belong to
layout.  Only a gap tells them apart: the layout of a gap has to begin with a blank, so no gap is
read where a comment begins right behind an item.  That makes a difference if another item begins
behind the comment (`Clings`); in all other sources comments are as good as blanks
(`read_commentless`).
-/

namespace RigidScene.Syntax

open RigidScene.Text
open RigidScene.Text.Parser (Alike)

/-! ## Sources without comments -/

/-- The text with a blank in place of each comment; the newline behind a comment stays. -/
def blanked : Mode → List Char → List Char
  | _, [] => []
  | .code, '/' :: '/' :: s => ' ' :: blanked .comment s
  | .comment, c :: s => if c = '\n' then c :: blanked .code s else blanked .comment s
  | m, c :: s => c :: blanked (m.next c) s

/-- The text of a source in which no comment stands. -/
abbrev commentless (s : List Char) : List Char :=
  blanked .code s

variable {c : Char} {s s' t rest : List Char}

theorem commentless_comment (s : List Char) :
    commentless ('/' :: '/' :: s) = ' ' :: blanked .comment s := by
  rw [commentless, blanked]

theorem commentless_cons (code : ∀ t, c = '/' → s ≠ '/' :: t) :
    commentless (c :: s) = c :: blanked (Mode.code.next c) s := by
  rw [commentless, blanked]
  · exact fun t _ => code t
  · nofun

theorem commentless_code (quote : c ≠ '"') (slash : c ≠ '/') (s : List Char) :
    commentless (c :: s) = c :: commentless s := by
  rw [commentless_cons fun _ same => absurd same slash, next_code quote slash]

theorem commentless_slash (single : ∀ t, s ≠ '/' :: t) :
    commentless ('/' :: s) = '/' :: commentless s := by
  rw [commentless_cons fun t _ => single t]
  show '/' :: blanked .slash s = _
  cases s with
  | nil => rfl
  | cons c s =>
    have other : c ≠ '/' := by
      rintro rfl
      exact single s rfl
    rw [commentless_cons fun _ slash => absurd slash other, blanked, next_slash single]
    · rintro _ ⟨⟩
    · rintro ⟨⟩

theorem commentless_quote (s : List Char) : commentless ('"' :: s) = '"' :: blanked .string s :=
  commentless_cons (by rintro _ ⟨⟩)

theorem blanked_string {text : List Char} (others : ∀ c ∈ text, c ≠ '"') (rest : List Char) :
    blanked .string (text ++ rest) = text ++ blanked .string rest := by
  induction text with
  | nil => rfl
  | cons c text ih =>
    obtain ⟨other, others⟩ := List.forall_mem_cons.mp others
    have later : Mode.string.next c = .string := if_neg other
    rw [List.cons_append, blanked, later, ih others]
    · rfl
    · nofun
    · nofun

/-- A string stays as it is. -/
theorem commentless_string {text : List Char} (others : ∀ c ∈ text, c ≠ '"') (rest : List Char) :
    commentless ('"' :: text ++ '"' :: rest) = '"' :: text ++ '"' :: commentless rest := by
  rw [List.cons_append, commentless_quote, blanked_string others, blanked]
  · rfl
  · nofun
  · nofun

/-- A string that is not closed stays as it is, too. -/
theorem commentless_open {text : List Char} (others : ∀ c ∈ text, c ≠ '"') :
    commentless ('"' :: text) = '"' :: text := by
  rw [commentless_quote]
  have whole := blanked_string others []
  rw [List.append_nil, blanked, List.append_nil] at whole
  rw [whole]

/-- The first character stays as it is, or it begins a comment. -/
theorem commentless_head (c : Char) (s : List Char) :
    ∃ t, commentless (c :: s) = c :: t ∨ c = '/' ∧ commentless (c :: s) = ' ' :: t := by
  by_cases comment : c = '/' ∧ ∃ t, s = '/' :: t
  · obtain ⟨rfl, t, rfl⟩ := comment
    exact ⟨_, .inr ⟨rfl, commentless_comment t⟩⟩
  · exact ⟨_, .inl (commentless_cons fun t slash begun => comment ⟨slash, t, begun⟩)⟩

/-- Layout goes on as far as before. -/
theorem skip_blanked (b : Bool) (s : List Char) :
    skip false (blanked (if b then .comment else .code) s) = commentless (skip b s) := by
  fun_induction skip b s with
  | case1 b => cases b <;> rfl
  | case2 c s ih =>
    rw [if_pos rfl, blanked]
    by_cases newline : c = '\n'
    · subst newline
      rw [if_pos rfl, skip_blank rfl]
      exact ih
    · rw [if_neg newline]
      rw [decide_eq_true newline] at ih ⊢
      exact ih
  | case3 s ih =>
    refine Eq.trans ?_ ih
    show skip false (commentless ('/' :: '/' :: s)) = _
    rw [commentless_comment, skip_blank rfl]
    rfl
  | case4 c s code blank ih =>
    have quote : c ≠ '"' := by rintro rfl; cases blank
    have slash : c ≠ '/' := by rintro rfl; cases blank
    show skip false (commentless (c :: s)) = _
    rw [commentless_code quote slash, skip_blank blank]
    exact ih
  | case5 c s code solid =>
    show skip false (commentless (c :: s)) = commentless (c :: s)
    by_cases slash : c = '/'
    · subst slash
      have single : ∀ t, s ≠ '/' :: t := fun t => code t rfl
      rw [commentless_slash single]
      refine skip_stop rfl fun t _ begun => ?_
      cases s with
      | nil => cases begun
      | cons d s =>
        obtain ⟨t, same | ⟨_, same⟩⟩ := commentless_head d s
        · rw [same] at begun
          cases begun
          exact single s rfl
        · rw [same] at begun
          cases begun
    · rw [commentless_cons code]
      exact skip_stop (Bool.eq_false_iff.mpr solid) fun _ same => absurd same slash

theorem skip_commentless (s : List Char) :
    skip false (commentless s) = commentless (skip false s) :=
  skip_blanked false s

namespace Statements

/-! ## Comments right behind an item -/

/-- Between the two texts a comment begins right behind an item, and another item begins behind the
comment. -/
structure ClingsAt (before after : List Char) : Prop where
  code : before.foldl Mode.next .code = .code
  item : ∃ c ∈ before.getLast?, endsItem c = true
  comment : ['/', '/'] <+: after
  next : ¬ Idle (skip false after)

/-- Somewhere in the text a comment stands right between two items.  Only there can a blank in place
of the comment make a difference; it makes none if the text is refused anyway. -/
def Clings (s : List Char) : Prop :=
  ∃ before after, s = before ++ after ∧ ClingsAt before after

section Decisions

variable (before after s : List Char)

-- The instances for options are named, since others try every character there is.
instance : Decidable (Idle s) :=
  have : Decidable (∀ c ∈ s.head?, opensItem c = false) := Option.decidableForallMem s.head?
  decidable_of_iff ((∀ c ∈ s.head?, opensItem c = false) ∧ beginsNumber s = false)
    ⟨fun ⟨opens, numberless⟩ => ⟨opens, numberless⟩,
      fun ⟨opens, numberless⟩ => ⟨opens, numberless⟩⟩

instance : Decidable (ClingsAt before after) :=
  have : Decidable (∃ c ∈ before.getLast?, endsItem c = true) := Option.decidableExistsMem _
  decidable_of_iff (before.foldl Mode.next .code = .code ∧
      (∃ c ∈ before.getLast?, endsItem c = true) ∧ ['/', '/'] <+: after ∧
        ¬ Idle (skip false after))
    ⟨fun ⟨code, item, comment, next⟩ => ⟨code, item, comment, next⟩,
      fun ⟨code, item, comment, next⟩ => ⟨code, item, comment, next⟩⟩

theorem clings_iff : Clings s ↔ ∃ n < s.length + 1, ClingsAt (s.take n) (s.drop n) := by
  constructor
  · rintro ⟨before, after, rfl, clings⟩
    refine ⟨before.length, ?_, ?_⟩
    · rw [List.length_append]
      omega
    · rwa [List.take_left, List.drop_left]
  · rintro ⟨n, _, clings⟩
    exact ⟨s.take n, s.drop n, (List.take_append_drop n s).symm, clings⟩

instance : Decidable (Clings s) :=
  decidable_of_iff _ (clings_iff s).symm

end Decisions

theorem not_clings_nil : ¬ Clings [] := by
  rintro ⟨before, after, split, clings⟩
  obtain ⟨rfl, rfl⟩ := List.append_eq_nil_iff.mp split.symm
  cases clings.comment.length_le

/-- A comment that stands between items stands there in a longer text, too. -/
theorem Clings.append {x : List Char} (clings : Clings t)
    (code : x.foldl Mode.next .code = .code) : Clings (x ++ t) := by
  obtain ⟨before, after, rfl, code', item, comment, next⟩ := clings
  refine ⟨x ++ before, after, (List.append_assoc _ _ _).symm, ?_, ?_, comment, next⟩
  · rw [List.foldl_append, code, code']
  · obtain ⟨c, last, ends⟩ := item
    refine ⟨c, ?_, ends⟩
    rw [List.getLast?_append, Option.mem_def.mp last]
    rfl

theorem Clings.slash (clings : Clings s) (single : ∀ t, s ≠ '/' :: t) : Clings ('/' :: s) := by
  obtain ⟨before, after, rfl, code, item, comment, next⟩ := clings
  refine ⟨'/' :: before, after, rfl, ?_, ?_, comment, next⟩
  · cases before with
    | nil => simp at item
    | cons c before =>
      show before.foldl Mode.next (Mode.slash.next c) = .code
      rw [next_slash single]
      exact code
  · obtain ⟨c, last, ends⟩ := item
    refine ⟨c, ?_, ends⟩
    rw [List.getLast?_cons, Option.mem_def.mp last]
    rfl

/-- Nor is there one in what follows layout, if there is none before. -/
theorem Clings.skip (clings : Clings (skip false s)) : Clings s := by
  obtain ⟨layout, split, _, more⟩ := skip_split false s
  by_cases none : Syntax.skip false s = []
  · rw [none] at clings
    exact absurd clings not_clings_nil
  · rw [split]
    exact clings.append (more none).1

/-! ## Tokens -/

/-- The second text is the first one with blanks for its comments, none of which stands right
between two items. -/
structure Blanks (s s' : List Char) : Prop where
  same : s' = commentless s
  free : ¬ Clings s

/-- No item begins behind a comment that the first text begins with. -/
structure BlanksBehind (s s' : List Char) : Prop extends Blanks s s' where
  idle : ['/', '/'] <+: s → Idle (skip false s)

namespace Blanks

variable {x : List Char} (blanks : Blanks (x ++ t) s') (code : x.foldl Mode.next .code = .code)

include blanks code

theorem drop : Blanks t (commentless t) :=
  ⟨rfl, fun clings => blanks.free (clings.append code)⟩

/-- Behind an item. -/
theorem behind (item : ∃ c ∈ x.getLast?, endsItem c = true) : BlanksBehind t (commentless t) :=
  { blanks.drop code with
    idle := fun comment => by_contra fun next =>
      blanks.free ⟨x, t, rfl, code, item, comment, next⟩ }

end Blanks

/-- Where no layout begins, no comment does. -/
theorem Blanks.skipped (blanks : Blanks s s') : BlanksBehind (skip false s) (skip false s') where
  same := by rw [blanks.same, skip_commentless]
  free clings := blanks.free clings.skip
  idle := by
    rintro ⟨t, begins⟩
    have solid := skip_solid begins.symm
    exact absurd rfl (solid.2 t rfl)

section Characters

variable {accepts : Char → Bool} (quote : accepts '"' = false) (slash : accepts '/' = false)
  (blank : accepts ' ' = false)

include quote slash blank

/-- A character that begins no string and no layout. -/
theorem satisfy_blanks {S : List Char → List Char → Prop}
    (behind : ∀ c s s', accepts c = true → [c].foldl Mode.next .code = .code →
      Blanks ([c] ++ s) s' → S s (commentless s)) :
    Alike Blanks S 1 (Parser.satisfy accepts) (Parser.satisfy accepts) := by
  intro s s' blanks
  obtain rfl := blanks.same
  cases s with
  | nil => exact .fail
  | cons c s =>
    by_cases accepted : accepts c = true
    · have others : c ≠ '"' ∧ c ≠ '/' := by
        refine ⟨?_, ?_⟩ <;> rintro rfl <;> simp_all
      have code := next_code others.1 others.2
      have read (t : List Char) : Parser.satisfy accepts (c :: t) = .ok c t := if_pos accepted
      rw [commentless_code others.1 others.2, read, read]
      exact .ok (Nat.le_refl _) (Nat.le_refl _) (behind c s _ accepted code blanks)
    · have refused (t : List Char) : Parser.satisfy accepts (c :: t) = .fail := if_neg accepted
      obtain ⟨t, same | ⟨_, same⟩⟩ := commentless_head c s
      · rw [same, refused, refused]
        exact .fail
      · have refused' : Parser.satisfy accepts (' ' :: t) = .fail := if_neg (by simp [blank])
        rw [same, refused, refused']
        exact .fail

theorem code_blanks : Alike Blanks Blanks 1 (Parser.satisfy accepts) (Parser.satisfy accepts) :=
  satisfy_blanks quote slash blank fun _ _ _ _ code blanks => blanks.drop code

theorem ending_blanks (ends : ∀ c, accepts c = true → endsItem c = true) :
    Alike Blanks BlanksBehind 1 (Parser.satisfy accepts) (Parser.satisfy accepts) :=
  satisfy_blanks quote slash blank fun c _ _ accepted code blanks =>
    blanks.behind code ⟨c, rfl, ends c accepted⟩

end Characters

theorem string_blanks : Alike Blanks BlanksBehind 1 string string := by
  intro s s' blanks
  obtain rfl := blanks.same
  cases s with
  | nil => exact .fail
  | cons c s =>
    by_cases quote : c = '"'
    · subst quote
      obtain ⟨text, rest, rfl, inside⟩ | ⟨inside, failed⟩ := quote_cases s
      · have whole : '"' :: (text ++ '"' :: rest) = ('"' :: text ++ ['"']) ++ rest := by simp
        have behind := Blanks.behind (whole ▸ blanks) (scan_string inside)
          ⟨'"', List.getLast?_concat, rfl⟩
        rw [← List.cons_append, commentless_string inside, string_quote inside, string_quote inside]
        refine .ok ?_ ?_ behind
        · simp
          omega
        · simp
          omega
      · rw [commentless_open inside, failed]
        exact .fail
    · obtain ⟨t, same | ⟨_, same⟩⟩ := commentless_head c s
      · rw [same, string_other quote, string_other quote]
        exact .fail
      · rw [same, string_other quote, string_other (by decide)]
        exact .fail

theorem space_blanks : Alike Blanks BlanksBehind 0 space space := by
  intro s s' blanks
  rw [space_apply, space_apply]
  exact .ok (skip_length false s) (skip_length false s') blanks.skipped

theorem multiplicative_blanks : Alike Blanks BlanksBehind 1 (spaced multiplicativeOperator)
    (spaced multiplicativeOperator) := by
  intro s s' blanks
  have shorter := skip_length false s
  have shorter' := skip_length false s'
  have skipped := blanks.skipped.toBlanks
  rw [multiplicative_apply, multiplicative_apply]
  cases left : skip false s with
  | nil =>
    rw [left] at skipped
    rw [skipped.same]
    exact .fail
  | cons c rest =>
    have solid := skip_solid left
    rw [left] at skipped shorter
    by_cases operator : (c = '*' || c = '/') = true
    · have onward : commentless (c :: rest) = c :: commentless rest ∧
          Blanks rest (commentless rest) := by
        simp only [Bool.or_eq_true, decide_eq_true_eq] at operator
        rcases operator with rfl | rfl
        · exact ⟨commentless_code (by decide) (by decide) rest, skipped.drop (x := ['*']) rfl⟩
        · have single : ∀ t, rest ≠ '/' :: t := fun t => solid.2 t rfl
          exact ⟨commentless_slash single, rfl, fun clings => skipped.free (clings.slash single)⟩
      rw [skipped.same, onward.1] at shorter' ⊢
      simp only [operator, if_true]
      refine .ok ?_ ?_ onward.2.skipped
      · exact Nat.le_trans (Nat.succ_le_succ (skip_length false rest)) shorter
      · exact Nat.le_trans (Nat.succ_le_succ (skip_length false _)) shorter'
    · obtain ⟨t, same | ⟨_, same⟩⟩ := commentless_head c rest
      · rw [skipped.same, same]
        simp only [operator]
        exact .fail
      · rw [skipped.same, same]
        simp only [operator]
        exact .fail

/-- Neither a blank nor a comment begins with a digit. -/
theorem commentless_head_isDigit (s : List Char) :
    (commentless s).head?.any Char.isDigit = s.head?.any Char.isDigit := by
  cases s with
  | nil => rfl
  | cons c s =>
    obtain ⟨t, same | ⟨rfl, same⟩⟩ := commentless_head c s
    · rw [same]
      rfl
    · rw [same]
      rfl

theorem beginsDigits_commentless (s : List Char) :
    beginsDigits (commentless s) = beginsDigits s := by
  cases s with
  | nil => rfl
  | cons c s =>
    by_cases point : c = '.'
    · subst point
      rw [commentless_code (by decide) (by decide), beginsDigits_point, beginsDigits_point,
        commentless_head_isDigit]
    · obtain ⟨t, same | ⟨rfl, same⟩⟩ := commentless_head c s
      · rw [same, beginsDigits_cons point, beginsDigits_cons point]
      · rw [same]
        rfl

/-- Nor does a number begin where one of these does. -/
theorem beginsNumber_commentless (s : List Char) :
    beginsNumber (commentless s) = beginsNumber s := by
  cases s with
  | nil => rfl
  | cons c s =>
    by_cases signed : c = '+' ∨ c = '-'
    · rcases signed with rfl | rfl
      all_goals
        rw [commentless_code (by decide) (by decide)]
        exact beginsDigits_commentless s
    · have unsigned (text : List Char) : Unsigned (c :: text) := by
        rintro d ⟨⟩
        exact not_or.mp signed
      have digits := beginsDigits_commentless (c :: s)
      rw [beginsNumber_eq (unsigned s), ← digits]
      obtain ⟨t, same | ⟨rfl, same⟩⟩ := commentless_head c s
      · rw [same, beginsNumber_eq (unsigned t)]
      · rw [same]
        rfl

theorem Idle.commentless (idle : Idle s) : Idle (commentless s) where
  opens := by
    cases s with
    | nil => exact idle.opens
    | cons c s =>
      obtain ⟨t, same | ⟨_, same⟩⟩ := commentless_head c s
      · rw [same]
        exact idle.opens
      · rw [same]
        rintro _ ⟨⟩
        rfl
  numberless := (beginsNumber_commentless s).trans idle.numberless

/-- A gap is read in both texts, unless a comment stands behind the item; then none follows it. -/
theorem gap_blanks {s s' : List Char} (behind : BlanksBehind s s') :
    (gap s).Matches BlanksBehind s s' 1 (gap s') ∨
      gap s = .fail ∧ ∃ rest', gap s' = .ok () rest' ∧ Idle rest' := by
  obtain rfl := behind.same
  cases s with
  | nil => exact .inl .fail
  | cons c s =>
    by_cases blank : isSpace c = true
    · have quote : c ≠ '"' := by rintro rfl; cases blank
      have slash : c ≠ '/' := by rintro rfl; cases blank
      have skipped := behind.toBlanks.skipped
      rw [commentless_code quote slash, skip_blank blank, skip_blank blank] at skipped
      rw [commentless_code quote slash, gap_apply, gap_apply, if_pos blank, if_pos blank]
      have shorter (s : List Char) := Nat.succ_le_succ (skip_length false s)
      exact .inl (.ok (shorter s) (shorter _) skipped)
    · have failed : gap (c :: s) = .fail := by rw [gap_apply, if_neg blank]
      by_cases comment : c = '/' ∧ ∃ t, s = '/' :: t
      · obtain ⟨rfl, t, rfl⟩ := comment
        have idle : Idle (skip true t) := behind.idle ⟨t, rfl⟩
        have read : gap (commentless ('/' :: '/' :: t)) = .ok () (commentless (skip true t)) := by
          rw [commentless_comment, gap_apply]
          exact congrArg (Outcome.ok ()) (skip_blanked true t)
        exact .inr ⟨failed, _, read, idle.commentless⟩
      · have code : ∀ t, c = '/' → s ≠ '/' :: t := fun t slash begun => comment ⟨slash, t, begun⟩
        rw [failed, commentless_cons code, gap_apply, if_neg blank]
        exact .inl .fail

theorem tokens_blanks : Tokens Blanks BlanksBehind where
  anywhere _ _ := BlanksBehind.toBlanks
  satisfy inner := code_blanks (inner.refuses rfl) (inner.refuses rfl) (inner.refuses rfl)
  ending inner ends :=
    ending_blanks (inner.refuses rfl) (inner.refuses rfl) (inner.refuses rfl) ends
  string := string_blanks
  space := space_blanks
  multiplicative := multiplicative_blanks
  gap _ _ := gap_blanks

theorem delimiters_blanks : Delimiters Blanks BlanksBehind where
  semicolon := code_blanks rfl rfl rfl
  brace := ending_blanks rfl rfl rfl fun c same => by rw [of_decide_eq_true same]; rfl
  atEnd := by
    intro s s' blanks
    obtain rfl := blanks.same
    cases s with
    | nil => exact .ok (Nat.le_refl _) (Nat.le_refl _) blanks
    | cons c s =>
      obtain ⟨t, same | ⟨_, same⟩⟩ := commentless_head c s
      · rw [same]
        exact .fail
      · rw [same]
        exact .fail

/-! ## Whole sources -/

theorem primary_blanks : Alike Blanks BlanksBehind 1 primary primary := by
  refine Alike.knot (R := fun _ : Unit => Blanks) (S := fun _ => BlanksBehind) waits_primary
    (fun _ s s' p q blanks alike waits _ => ?_) ()
  have tokens := tokens_blanks.below s.length s'.length
  have delimiters := delimiters_blanks.below s.length s'.length
  have wait : Waits q := fun t idle => (waits t idle).2
  have opening : Alike Blanks Blanks 1 (Parser.char '{') (Parser.char '{') :=
    code_blanks rfl rfl rfl
  exact (tokens_blanks.enters blanks).primaryStep tokens (alike ()) wait
    (delimiters.block tokens (alike ()) wait (opening.enter blanks))
    (delimiters.block tokens (alike ()) wait (opening.below _ _))

theorem program_blanks : Alike Blanks Blanks 0 program program :=
  (delimiters_blanks.statements tokens_blanks primary_blanks waits_primary).seqLeft
    (tokens_blanks.loosely tokens_blanks.space)

/-- The source is read to its end if and only if it is with blanks for its comments. -/
theorem program_commentless (free : ¬ Clings s) (ts : List Tree) :
    program (commentless s) = .ok ts [] ↔ program s = .ok ts [] := by
  have outcome := program_blanks s (commentless s) ⟨rfl, free⟩
  generalize program s = o at outcome ⊢
  generalize program (commentless s) = o' at outcome ⊢
  cases outcome with
  | @ok vs rest rest' _ _ blanks =>
    obtain rfl := blanks.same
    cases rest with
    | nil => exact Iff.rfl
    | cons c rest =>
      obtain ⟨t, same | ⟨_, same⟩⟩ := commentless_head c rest
      · simp [same]
      · simp [same]
  | fail => exact Iff.rfl
  | abort => simp

end Statements

open Statements in
/-- **Comments are blanks** where they do not stand right between two items: with a blank in place
of each comment, the source is read to the same tree, or both are refused. -/
theorem read_commentless {source : List Char} (free : ¬ Clings source) :
    (SourceForm.statements.read (commentless source)).toOption =
      (SourceForm.statements.read source).toOption := by
  have same (tree : Tree) : SourceForm.statements.read (commentless source) = .ok tree ↔
      SourceForm.statements.read source = .ok tree := by
    simp only [read_statements_iff, program_commentless free]
  cases read : SourceForm.statements.read source with
  | ok tree =>
    rw [(same tree).mpr read]
  | error e =>
    cases read' : SourceForm.statements.read (commentless source) with
    | ok tree =>
      rw [(same tree).mp read'] at read
      cases read
    | error e' => rfl

/-- A comment in a gap, one before a semicolon, one before an operator, and a string with two
slashes. -/
def commentsBetween : List Char :=
  "m: \"//\"// c\n; k// d\n- 5; circle 0 0 // \"r\n5".toList

open Statements in
theorem commentsBetween_blanked : ¬ Clings commentsBetween ∧
    commentless commentsBetween = "m: \"//\" \n; k \n- 5; circle 0 0  \n5".toList ∧
    ((SourceForm.statements.read commentsBetween).toOption.map
      fun t => t.children.map Tree.tag) = some ["label", "call", "body"] ∧
    (SourceForm.statements.read (commentless commentsBetween)).toOption =
      (SourceForm.statements.read commentsBetween).toOption := by
  have free : ¬ Clings commentsBetween := by decide +kernel
  exact ⟨free, by decide +kernel, by decide +kernel, read_commentless free⟩

/-- A comment between the name of a shape and its arguments is no gap, though a newline ends it. -/
theorem commentBehindShape_refused :
    (SourceForm.statements.read "circle// c\n0 0 5".toList).toOption = none ∧
      commentless "circle// c\n0 0 5".toList = "circle \n0 0 5".toList ∧
      ((SourceForm.statements.read (commentless "circle// c\n0 0 5".toList)).toOption.map
        fun t => t.children.map Tree.tag) = some ["body"] := by
  refine ⟨?_, ?_, ?_⟩ <;> decide +kernel

end RigidScene.Syntax
