import RigidScene.Proofs.Text.Yields
import RigidScene.Syntax.Statements

/-!
Strings and comments of a source in the statement notation.

A scan of a text that begins between two tokens tells strings and comments from the rest: `Closed`
says that it does not end inside a string.  The grammar and the scan agree about every token, so
whatever a token reads, the text behind it is closed just if the text before it is (`Level`).
`skip` is the text behind layout; layout reads up to there (`space_apply`).
-/

namespace RigidScene.Syntax

open RigidScene.Text
open RigidScene.Text.Parser (bind_apply discard_apply orElse_apply satisfy takeWhile1_apply)

/-- Where a scan stands. -/
inductive Mode where
  | code
  /-- Behind a slash, which begins a comment if another one follows. -/
  | slash
  | string
  | comment
  deriving DecidableEq

/-- Where a scan stands behind a character. -/
def Mode.next : Mode → Char → Mode
  | string, c => if c = '"' then code else string
  | comment, c => if c = '\n' then code else comment
  | slash, c => if c = '/' then comment else if c = '"' then string else code
  | code, c => if c = '/' then slash else if c = '"' then string else code

/-- A scan that goes on with the text does not end inside a string. -/
def Mode.Closes (m : Mode) (s : List Char) : Prop :=
  s.foldl Mode.next m ≠ .string

/-- Every string that begins in the text ends in it. -/
def Closed (s : List Char) : Prop :=
  Mode.code.Closes s

theorem closed_nil : Closed [] :=
  nofun

/-- A character that neither begins a string or a comment nor separates statements. -/
def isPlain (c : Char) : Bool :=
  c ≠ '"' && c ≠ '/' && c ≠ '\n' && c ≠ ';'

/-- A plain character begins neither a string nor a comment. -/
theorem isPlain_code {c : Char} (plain : isPlain c = true) : c ≠ '"' ∧ c ≠ '/' := by
  simp only [isPlain, ne_eq, decide_not, Bool.and_eq_true, Bool.not_eq_true',
    decide_eq_false_iff_not] at plain
  exact plain.1.1

/-- The class has plain characters only. -/
def Plain (accepts : Char → Bool) : Prop :=
  ∀ c, accepts c = true → isPlain c = true

theorem Plain.code {accepts : Char → Bool} (plain : Plain accepts) (c : Char)
    (accepted : accepts c = true) : c ≠ '"' ∧ c ≠ '/' :=
  isPlain_code (plain c accepted)

theorem plain_of {accepts : Char → Bool} (quote : accepts '"' = false) (slash : accepts '/' = false)
    (newline : accepts '\n' = false) (semicolon : accepts ';' = false) : Plain accepts := by
  intro c accepted
  have others : c ≠ '"' ∧ c ≠ '/' ∧ c ≠ '\n' ∧ c ≠ ';' := by
    refine ⟨?_, ?_, ?_, ?_⟩ <;> rintro rfl <;> simp_all
  simpa [isPlain, and_assoc] using others

theorem plain_char {c : Char} (plain : isPlain c = true) : Plain (· = c) := by
  intro d same
  rwa [of_decide_eq_true same]

theorem next_code {c : Char} (quote : c ≠ '"') (slash : c ≠ '/') : Mode.code.next c = .code := by
  rw [Mode.next, if_neg slash, if_neg quote]

theorem closed_code {c : Char} {s : List Char} (quote : c ≠ '"') (slash : c ≠ '/') :
    Closed (c :: s) ↔ Closed s := by
  rw [Closed, Mode.Closes, List.foldl_cons, next_code quote slash]
  rfl

/-- Behind a slash that begins no comment the scan goes on as before it. -/
theorem next_slash {c : Char} {s : List Char} (single : ∀ t, c :: s ≠ '/' :: t) :
    Mode.slash.next c = Mode.code.next c := by
  have other : c ≠ '/' := by
    rintro rfl
    exact single s rfl
  rw [Mode.next, Mode.next, if_neg other, if_neg other]

theorem closed_slash {s : List Char} (single : ∀ t, s ≠ '/' :: t) :
    Closed ('/' :: s) ↔ Closed s := by
  cases s with
  | nil => exact ⟨fun _ => closed_nil, fun _ => nofun⟩
  | cons c s =>
    show Mode.Closes (Mode.slash.next c) s ↔ Mode.Closes (Mode.code.next c) s
    rw [next_slash single]

/-- A string that is closed, and the text behind it. -/
theorem closed_quote {s : List Char} (closed : Closed ('"' :: s)) :
    ∃ text rest, s = text ++ '"' :: rest ∧ (∀ c ∈ text, c ≠ '"') ∧ Closed rest := by
  have inside : Mode.string.Closes s := closed
  clear closed
  induction s with
  | nil => exact absurd rfl inside
  | cons c s ih =>
    by_cases quote : c = '"'
    · subst quote
      exact ⟨[], s, rfl, List.forall_mem_nil _, inside⟩
    · have later : Mode.string.next c = .string := if_neg quote
      rw [Mode.Closes, List.foldl_cons, later] at inside
      obtain ⟨text, rest, rfl, others, closed⟩ := ih inside
      exact ⟨c :: text, rest, rfl, List.forall_mem_cons.mpr ⟨quote, others⟩, closed⟩

/-- Behind a string a scan is in code again. -/
theorem scan_string {text : List Char} (others : ∀ c ∈ text, c ≠ '"') :
    ('"' :: text ++ ['"']).foldl Mode.next .code = .code := by
  show (text ++ ['"']).foldl Mode.next .string = .code
  induction text with
  | nil => rfl
  | cons c text ih =>
    obtain ⟨other, others⟩ := List.forall_mem_cons.mp others
    have later : Mode.string.next c = .string := if_neg other
    rw [List.cons_append, List.foldl_cons, later]
    exact ih others

/-- A string is closed by the next quotation mark. -/
theorem closed_string {text rest : List Char} (others : ∀ c ∈ text, c ≠ '"') :
    Closed ('"' :: text ++ '"' :: rest) ↔ Closed rest := by
  have whole : '"' :: text ++ '"' :: rest = ('"' :: text ++ ['"']) ++ rest := by simp
  rw [whole, Closed, Mode.Closes, List.foldl_append, scan_string others]
  rfl

/-- The text behind layout; with `true`, of a text that begins inside a comment. -/
def skip : Bool → List Char → List Char
  | _, [] => []
  | true, c :: s => skip (c ≠ '\n') s
  | false, '/' :: '/' :: s => skip true s
  | false, c :: s => if isSpace c then skip false s else c :: s

theorem skip_blank {c : Char} (blank : isSpace c = true) (s : List Char) :
    skip false (c :: s) = skip false s := by
  rw [skip, if_pos blank]
  rintro t rfl
  cases blank

/-- Where no layout begins, nothing is skipped. -/
theorem skip_stop {c : Char} {s : List Char} (solid : isSpace c = false)
    (code : ∀ t, c = '/' → s ≠ '/' :: t) : skip false (c :: s) = c :: s := by
  rw [skip, if_neg (by simp [solid])]
  exact code

/-- What is left does not begin with layout. -/
theorem skip_solid {b : Bool} {s rest : List Char} {c : Char} (left : skip b s = c :: rest) :
    isSpace c = false ∧ ∀ t, c = '/' → rest ≠ '/' :: t := by
  fun_induction skip b s with
  | case1 => cases left
  | case2 _ _ ih | case3 _ ih | case4 _ _ _ _ ih => exact ih left
  | case5 c' s code solid =>
    cases left
    exact ⟨Bool.eq_false_iff.mpr solid, code⟩

/-- Behind layout there is no more layout. -/
theorem skip_skip (b : Bool) (s : List Char) : skip false (skip b s) = skip b s := by
  cases left : skip b s with
  | nil => rfl
  | cons c rest => exact skip_stop (skip_solid left).1 (skip_solid left).2

theorem skip_length (b : Bool) (s : List Char) : (skip b s).length ≤ s.length := by
  fun_induction skip b s with
  | case1 => exact Nat.le_refl _
  | case2 _ _ ih | case4 _ _ _ _ ih => exact Nat.le_succ_of_le ih
  | case3 s ih => exact Nat.le_succ_of_le (Nat.le_succ_of_le ih)
  | case5 => exact Nat.le_refl _

/-- What is skipped stands before what is left and is layout by itself.  If anything is left, a scan
is in code there, and the layout may stand before any other text. -/
theorem skip_split (b : Bool) (s : List Char) : ∃ layout, s = layout ++ skip b s ∧
    skip b layout = [] ∧ (skip b s ≠ [] →
      layout.foldl Mode.next (if b then .comment else .code) = .code ∧
        ∀ u, skip b (layout ++ u) = skip false u) := by
  fun_induction skip b s with
  | case1 b => exact ⟨[], rfl, by cases b <;> rfl, absurd rfl⟩
  | case2 c s ih =>
    obtain ⟨layout, split, blank, more⟩ := ih
    refine ⟨c :: layout, congrArg (c :: ·) split, blank, fun left => ⟨?_, (more left).2⟩⟩
    rw [← (more left).1, if_pos rfl, List.foldl_cons, Mode.next]
    by_cases newline : c = '\n' <;> simp [newline]
  | case3 s ih =>
    obtain ⟨layout, split, blank, more⟩ := ih
    exact ⟨'/' :: '/' :: layout, congrArg ('/' :: '/' :: ·) split, blank, more⟩
  | case4 c s _ space ih =>
    obtain ⟨layout, split, blank, more⟩ := ih
    have quote : c ≠ '"' := by rintro rfl; cases space
    have slash : c ≠ '/' := by rintro rfl; cases space
    refine ⟨c :: layout, congrArg (c :: ·) split, by rwa [skip_blank space], fun left => ⟨?_, ?_⟩⟩
    · show layout.foldl Mode.next (Mode.code.next c) = .code
      rw [next_code quote slash]
      exact (more left).1
    · intro u
      rw [List.cons_append, skip_blank space]
      exact (more left).2 u
  | case5 => exact ⟨[], rfl, rfl, fun _ => ⟨rfl, fun _ => rfl⟩⟩

/-- What is left behind layout is left in a longer text, too.  Only a slash at the end of the text
may turn out to begin a comment. -/
theorem skip_of_append {b : Bool} {s rest : List Char} {c : Char} (left : skip b s = c :: rest)
    (other : c ≠ '/') (u : List Char) : skip b (s ++ u) = c :: rest ++ u := by
  fun_induction skip b s with
  | case1 => cases left
  | case2 _ _ ih | case3 _ ih => exact ih left
  | case4 c' s _ blank ih =>
    rw [List.cons_append, skip_blank blank]
    exact ih left
  | case5 c' s _ solid =>
    cases left
    exact skip_stop (Bool.eq_false_iff.mpr solid) fun _ slash => absurd slash other

/-- A scan goes on behind layout as before it. -/
theorem closed_skip (b : Bool) (s : List Char) :
    Mode.Closes (if b then .comment else .code) s ↔ Closed (skip b s) := by
  fun_induction skip b s with
  | case1 b => cases b <;> exact ⟨fun _ => closed_nil, fun _ => nofun⟩
  | case2 c s ih =>
    rw [← ih, if_pos rfl, Mode.Closes, Mode.Closes, List.foldl_cons, Mode.next]
    by_cases newline : c = '\n' <;> simp [newline]
  | case3 s ih => exact ih
  | case4 c s code blank ih =>
    rw [← ih]
    have quote : c ≠ '"' := by rintro rfl; cases blank
    have slash : c ≠ '/' := by rintro rfl; cases blank
    show Mode.Closes (Mode.code.next c) s ↔ Mode.code.Closes s
    rw [next_code quote slash]
  | case5 c s code solid => rfl

/-- Layout that reaches the end of a text goes on in what follows. -/
theorem skip_append (b : Bool) (s u : List Char) : skip b (s ++ '\n' :: ';' :: u) =
    if skip b s = [] then ';' :: u else skip b s ++ '\n' :: ';' :: u := by
  fun_induction skip b s with
  | case1 b => cases b <;> rfl
  | case2 c s ih | case3 s ih => exact ih
  | case4 c s code blank ih =>
    rw [List.cons_append, skip_blank blank, ih]
  | case5 c s code solid =>
    rw [if_neg (List.cons_ne_nil _ _)]
    apply skip_stop (Bool.eq_false_iff.mpr solid)
    rintro t slash begun
    cases s with
    | nil => cases begun
    | cons d s =>
      cases begun
      exact code s slash rfl

theorem skip_dropWhile_blanks (s : List Char) :
    skip false (s.dropWhile isSpace) = skip false s := by
  induction s with
  | nil => rfl
  | cons c s ih =>
    rw [List.dropWhile_cons]
    split
    · rename_i blank
      rw [ih, skip_blank blank]
    · rfl

theorem skip_dropWhile_comment (s : List Char) :
    skip false (s.dropWhile (· ≠ '\n')) = skip true s := by
  induction s with
  | nil => rfl
  | cons c s ih =>
    by_cases newline : c = '\n'
    · subst newline
      rfl
    · rw [List.dropWhile_cons, if_pos (by simpa using newline), ih, skip]
      simp [newline]

/-! ## Layout -/

namespace Statements

/-- One piece of layout: blanks, or a comment. -/
def layoutPiece : Parser Unit :=
  Parser.orElse (discard (Parser.takeWhile1 isSpace))
    (Parser.text ['/', '/'] *> discard (Parser.takeWhile (· ≠ '\n')))

theorem layoutPiece_comment (s : List Char) :
    layoutPiece ('/' :: '/' :: s) = .ok () (s.dropWhile (· ≠ '\n')) := rfl

theorem layoutPiece_blank {c : Char} (blank : isSpace c = true) (s : List Char) :
    layoutPiece (c :: s) = .ok () (s.dropWhile isSpace) := by
  rw [layoutPiece, orElse_apply, discard_apply, takeWhile1_apply, if_pos blank]

theorem layoutPiece_other {c : Char} {s : List Char} (solid : isSpace c = false)
    (code : ∀ t, c = '/' → s ≠ '/' :: t) : layoutPiece (c :: s) = .fail := by
  have comment : Parser.text ['/', '/'] (c :: s) = .fail := by
    by_cases slash : c = '/'
    · subst slash
      cases s with
      | nil => rfl
      | cons d s =>
        have other : d ≠ '/' := by
          rintro rfl
          exact code s rfl rfl
        exact if_neg other
    · exact if_neg slash
  rw [layoutPiece, orElse_apply, discard_apply, takeWhile1_apply, solid]
  show (Parser.text ['/', '/'] >>= fun _ => discard (Parser.takeWhile (· ≠ '\n'))) (c :: s) = _
  rw [bind_apply, comment]

/-- What a piece of layout reads is skipped, and where there is none there is nothing to skip. -/
theorem layoutPiece_cases (s : List Char) :
    (∃ rest, layoutPiece s = .ok () rest ∧ rest.length < s.length ∧
      skip false rest = skip false s) ∨ (layoutPiece s = .fail ∧ skip false s = s) := by
  cases s with
  | nil => exact .inr ⟨rfl, rfl⟩
  | cons c s =>
    by_cases blank : isSpace c = true
    · have shorter := (List.dropWhile_suffix (p := isSpace) (l := s)).length_le
      rw [layoutPiece_blank blank, skip_blank blank]
      exact .inl ⟨_, rfl, Nat.lt_succ_of_le shorter, skip_dropWhile_blanks s⟩
    by_cases comment : c = '/' ∧ ∃ t, s = '/' :: t
    · obtain ⟨rfl, t, rfl⟩ := comment
      have shorter := (List.dropWhile_suffix (p := (· ≠ '\n')) (l := t)).length_le
      rw [layoutPiece_comment]
      exact .inl ⟨_, rfl, Nat.lt_succ_of_le (Nat.le_succ_of_le shorter), skip_dropWhile_comment t⟩
    · have solid := Bool.eq_false_iff.mpr blank
      have code : ∀ t, c = '/' → s ≠ '/' :: t := fun t slash begun => comment ⟨slash, t, begun⟩
      exact .inr ⟨layoutPiece_other solid code, skip_stop solid code⟩

theorem layoutPiece_consuming : Parser.Consuming layoutPiece := by
  intro s u rest read
  obtain ⟨rest', read', shorter, _⟩ | ⟨failed, _⟩ := layoutPiece_cases s
  · rw [read'] at read
    cases read
    exact shorter
  · rw [failed] at read
    cases read

/-- Layout reads what is skipped. -/
theorem space_apply (s : List Char) : space s = .ok () (skip false s) := by
  have pieces : ∃ us, Parser.many layoutPiece s = .ok us (skip false s) := by
    induction size : s.length using Nat.strongRecOn generalizing s with
    | ind size ih =>
      have once := Parser.many_eq layoutPiece layoutPiece_consuming s
      obtain ⟨rest, read, shorter, same⟩ | ⟨failed, same⟩ := layoutPiece_cases s
      · obtain ⟨us, others⟩ := ih rest.length (size ▸ shorter) rest rfl
        rw [read] at once
        simp only [others, same] at once
        exact ⟨() :: us, once⟩
      · rw [failed] at once
        exact ⟨[], once.trans (by rw [same])⟩
  obtain ⟨us, read⟩ := pieces
  exact (discard_apply (Parser.many layoutPiece) s).trans (by rw [read])

/-- Layout behind a blank. -/
theorem gap_apply (c : Char) (s : List Char) :
    gap (c :: s) = if isSpace c then .ok () (skip false s) else .fail := by
  show (Parser.takeWhile1 isSpace >>= fun _ => space) (c :: s) = _
  rw [bind_apply, takeWhile1_apply]
  cases isSpace c with
  | true =>
    refine (space_apply _).trans ?_
    rw [skip_dropWhile_blanks]
    rfl
  | false => rfl

/-- An operator that is read between layout. -/
theorem multiplicative_apply (s : List Char) : spaced multiplicativeOperator s =
    match skip false s with
    | [] => .fail
    | c :: rest => if c = '*' || c = '/' then .ok c (skip false rest) else .fail := by
  show ((space >>= fun _ => multiplicativeOperator) >>= fun c => space >>= fun _ => pure c) s = _
  simp only [bind_apply, space_apply, Parser.pure_apply]
  cases skip false s with
  | nil => rfl
  | cons c rest =>
    by_cases operator : (c = '*' || c = '/') = true
    · have read : multiplicativeOperator (c :: rest) = .ok c rest := if_pos operator
      simp only [read, operator, if_true]
    · have read : multiplicativeOperator (c :: rest) = .fail := if_neg operator
      simp only [read, operator]
      rfl

theorem multiplicative_skip (s : List Char) :
    spaced multiplicativeOperator s = spaced multiplicativeOperator (skip false s) := by
  rw [multiplicative_apply, multiplicative_apply, skip_skip]

end Statements

/-! ## Tokens -/

theorem head_of_dropWhile_quote {s rest : List Char} {c : Char}
    (left : s.dropWhile (· ≠ '"') = c :: rest) : c = '"' := by
  have stopped := List.head?_dropWhile_not (· ≠ '"') s
  rw [left] at stopped
  simpa using stopped

/-- What follows an opening quotation mark is a string if there is another one. -/
theorem string_open (s : List Char) : string ('"' :: s) =
    match s.dropWhile (· ≠ '"') with
    | [] => .fail
    | _ :: rest => .ok (Tree.string (s.takeWhile (· ≠ '"'))) rest := by
  show (Parser.char '"' >>= fun _ => pure (Tree.string (s.takeWhile (· ≠ '"'))))
    (s.dropWhile (· ≠ '"')) = _
  cases left : s.dropWhile (· ≠ '"') with
  | nil => rfl
  | cons d rest =>
    obtain rfl := head_of_dropWhile_quote left
    rfl

theorem string_other {c : Char} (other : c ≠ '"') (s : List Char) : string (c :: s) = .fail := by
  have refused : Parser.char '"' (c :: s) = .fail := if_neg (by simpa using other)
  rw [string, bind_apply, refused]

theorem string_quote {text : List Char} (others : ∀ c ∈ text, c ≠ '"') (rest : List Char) :
    string ('"' :: text ++ '"' :: rest) = .ok (Tree.string text) rest := by
  have inside : ∀ c ∈ text, decide (c ≠ '"') = true := by simpa using others
  rw [List.cons_append, string_open, List.dropWhile_append_of_pos inside,
    List.takeWhile_append_of_pos inside]
  simp

/-- Behind a quotation mark there is another one, or no string is read. -/
theorem quote_cases (s : List Char) :
    (∃ text rest, s = text ++ '"' :: rest ∧ ∀ c ∈ text, c ≠ '"') ∨
      (∀ c ∈ s, c ≠ '"') ∧ string ('"' :: s) = .fail := by
  have free {text : List Char} (none : '"' ∉ text) : ∀ c ∈ text, c ≠ '"' := by
    rintro c member rfl
    exact none member
  by_cases closed : '"' ∈ s
  · obtain ⟨text, rest, split, others⟩ := List.eq_append_cons_of_mem closed
    exact .inl ⟨text, rest, split, free others⟩
  · have left : s.dropWhile (· ≠ '"') = [] := by
      simpa [List.dropWhile_eq_nil_iff] using free closed
    exact .inr ⟨free closed, by rw [string_open, left]⟩

theorem string_ok {s rest : List Char} {t : Tree} (read : string s = .ok t rest) :
    ∃ text, s = '"' :: text ++ '"' :: rest ∧ ∀ c ∈ text, c ≠ '"' := by
  cases s with
  | nil => cases read
  | cons c s =>
    by_cases quote : c = '"'
    · subst quote
      have inside : ∀ c ∈ s.takeWhile (· ≠ '"'), c ≠ '"' :=
        fun c member => by simpa using List.mem_takeWhile_imp member
      refine ⟨s.takeWhile (· ≠ '"'), ?_, inside⟩
      rw [string_open] at read
      cases left : s.dropWhile (· ≠ '"') with
      | nil =>
        rw [left] at read
        cases read
      | cons d last =>
        obtain rfl := head_of_dropWhile_quote left
        rw [left] at read
        cases read
        rw [← left, List.cons_append, List.takeWhile_append_dropWhile]
    · rw [string_other quote] at read
      cases read

/-! ## Tokens and the scan -/

/-- The parser reads at least `n` characters, and a scan goes on behind them as before them. -/
def Level {α : Type} (n : Nat) (p : Parser α) : Prop :=
  ∀ s a rest, p s = .ok a rest → rest.length + n ≤ s.length ∧ (Closed rest ↔ Closed s)

theorem level_satisfy {accepts : Char → Bool}
    (code : ∀ c, accepts c = true → c ≠ '"' ∧ c ≠ '/') : Level 1 (satisfy accepts) := by
  intro s c rest read
  cases s with
  | nil => cases read
  | cons d s =>
    by_cases accepted : accepts d = true
    · rw [satisfy, if_pos accepted] at read
      cases read
      obtain ⟨quote, slash⟩ := code _ accepted
      exact ⟨Nat.le_refl _, (closed_code quote slash).symm⟩
    · rw [satisfy, if_neg accepted] at read
      cases read

theorem level_string : Level 1 string := by
  intro s t rest read
  obtain ⟨text, rfl, others⟩ := string_ok read
  refine ⟨?_, (closed_string others).symm⟩
  rw [List.length_append, List.length_cons, List.length_cons]
  omega

namespace Statements

theorem level_space : Level 0 space := by
  intro s u rest read
  rw [space_apply] at read
  cases read
  exact ⟨skip_length false s, (closed_skip false s).symm⟩

theorem level_gap : Level 1 gap := by
  intro s u rest read
  cases s with
  | nil => cases read
  | cons c s =>
    rw [gap_apply] at read
    split at read
    · rename_i blank
      cases read
      have same := closed_skip false (c :: s)
      rw [skip_blank blank] at same
      exact ⟨Nat.succ_le_succ (skip_length false s), same.symm⟩
    · cases read

theorem level_multiplicative : Level 1 (spaced multiplicativeOperator) := by
  intro s c rest read
  rw [multiplicative_apply] at read
  have shorter := skip_length false s
  have same := closed_skip false s
  cases left : skip false s with
  | nil =>
    rw [left] at read
    cases read
  | cons d after =>
    rw [left] at read same shorter
    by_cases operator : (d = '*' || d = '/') = true
    · simp only [operator, if_true] at read
      cases read
      have behind := closed_skip false after
      have begun : Closed (c :: after) ↔ Closed after := by
        simp only [Bool.or_eq_true, decide_eq_true_eq] at operator
        rcases operator with rfl | rfl
        · exact closed_code (by decide) (by decide)
        · exact closed_slash fun t => (skip_solid left).2 t rfl
      refine ⟨?_, behind.symm.trans (begun.symm.trans same.symm)⟩
      exact Nat.le_trans (Nat.succ_le_succ (skip_length false after)) shorter
    · simp only [operator] at read
      cases read

end Statements

end RigidScene.Syntax
