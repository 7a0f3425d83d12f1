import RigidScene.Proofs.Syntax.Scanning
import RigidScene.Proofs.Syntax.Words
import RigidScene.Syntax.Source

/-!
Reading the parenthesised notation inverts writing it.

`Renders` says which texts spell a form, and `RendersAll` which ones spell a list of them: any layout
may stand between two tokens, and has to stand between two words.  Each reading step hands on what
stands behind the form that it has read, so a text of forms is read form by form, whatever the layout
is: `form_reads` is the induction on the length of the text, and `read_rendered` the result.
-/

namespace RigidScene.Syntax.Forms

open RigidScene.Text
open RigidScene.Text.Parser (bind_read bind_refused map_read map_refused seqLeft_read
  seqLeft_refused seqRight_read seqRight_refused orElse_apply many)

/-- Blanks and comments, with a newline behind each comment. -/
inductive IsLayout : List Char → Prop where
  | none : IsLayout []
  | blank {c text} (space : isSpace c = true) (others : IsLayout text) : IsLayout (c :: text)
  | comment {line text} (inside : ∀ c ∈ line, c ≠ '\n') (others : IsLayout text) :
    IsLayout (';' :: line ++ '\n' :: text)

/-- The form is a single token and no list. -/
def isWord (form : Tree) : Bool :=
  form.text.isSome

mutual

/-- The text spells the form: a number, a string, a symbol that does not begin as a number does, or
a list with a tag and forms behind it. -/
inductive Renders : Tree → List Char → Prop where
  | number {text} (spelling : IsNumeral text) : Renders (.number text) text
  | string {text} (inside : ∀ c ∈ text, c ≠ '"') : Renders (.string text) ('"' :: text ++ ['"'])
  | symbol {text} (some : text ≠ []) (inside : ∀ c ∈ text, isSymbolChar c = true)
    (other : beginsNumber text = false) : Renders (.symbol text) text
  | list {gap tag children text} (layout : IsLayout gap) (some : tag ≠ [])
    (inside : ∀ c ∈ tag, isTagChar c = true) (behind : RendersAll true children text) :
    Renders (.branch (String.ofList tag) children) ('(' :: gap ++ tag ++ text ++ [')'])

/-- The text spells the forms, with layout before and behind each of them.  The layout between two
words is not empty; `word` says that the text stands behind a word. -/
inductive RendersAll : (word : Bool) → List Tree → List Char → Prop where
  | nil {word gap} (layout : IsLayout gap) : RendersAll word [] gap
  | cons {word gap form forms text rest} (layout : IsLayout gap)
    (apart : gap = [] → word = true → isWord form = false) (first : Renders form text)
    (others : RendersAll (isWord form) forms rest) :
    RendersAll word (form :: forms) (gap ++ text ++ rest)

end

/-! ## Layout -/

/-- No layout begins the text. -/
def Solid (text : List Char) : Prop :=
  ∀ c ∈ text.head?, isSpace c = false ∧ c ≠ ';'

theorem IsLayout.delimits {gap : List Char} (layout : IsLayout gap) :
    ∀ c ∈ gap.head?, isDelimiter c = true := by
  cases layout with
  | none => rintro c ⟨⟩
  | blank space others =>
    rintro c ⟨⟩
    simp [isDelimiter, space]
  | comment inside others =>
    rintro c ⟨⟩
    rfl

theorem IsLayout.dropBlanks {gap : List Char} (layout : IsLayout gap) :
    IsLayout (gap.dropWhile isSpace) := by
  induction layout with
  | none => exact .none
  | blank space _ ih => rwa [List.dropWhile_cons_of_pos space]
  | @comment line text inside others _ =>
    have solid : isSpace ';' ≠ true := by decide
    rw [List.cons_append, List.dropWhile_cons_of_neg solid, ← List.cons_append]
    exact .comment inside others

/-- One piece of layout: blanks, or a comment. -/
def layoutPiece : Parser Unit :=
  Parser.orElse (discard (Parser.takeWhile1 isSpace))
    (Parser.text [';'] *> discard (Parser.takeWhile (· ≠ '\n')))

theorem layoutPiece_comment {line rest : List Char} (inside : ∀ c ∈ line, c ≠ '\n') :
    layoutPiece (';' :: line ++ '\n' :: rest) = .ok () ('\n' :: rest) := by
  have all : ∀ c ∈ line, decide (c ≠ '\n') = true := by simpa using inside
  show Outcome.ok () ((line ++ '\n' :: rest).dropWhile (· ≠ '\n')) = _
  rw [dropWhile_run all (by rintro c ⟨⟩; rfl)]

theorem layoutPiece_blank {c : Char} (blank : isSpace c = true) (rest : List Char) :
    layoutPiece (c :: rest) = .ok () (rest.dropWhile isSpace) := by
  rw [layoutPiece, orElse_apply, Parser.discard_apply, Parser.takeWhile1_apply, if_pos blank]

theorem layoutPiece_solid {text : List Char} (solid : Solid text) : layoutPiece text = .fail := by
  have blanks : Parser.takeWhile1 isSpace text = .fail :=
    Parser.takeWhile1_other fun c first => (solid c first).1
  have comment : Parser.text [';'] text = .fail := by
    rw [Parser.text_cons]
    exact seqRight_refused (Parser.char_other fun c first => (solid c first).2)
  rw [layoutPiece, orElse_apply, Parser.discard_apply, blanks]
  exact seqRight_refused comment

theorem dropBlanks_append {rest : List Char} (solid : Solid rest) (text : List Char) :
    (text ++ rest).dropWhile isSpace = text.dropWhile isSpace ++ rest := by
  have kept : ([] ++ rest).dropWhile isSpace = rest :=
    dropWhile_run (List.forall_mem_nil _) fun c first => (solid c first).1
  rw [List.nil_append] at kept
  rw [List.dropWhile_append, kept]
  split
  · rename_i empty
    rw [List.isEmpty_iff.mp empty, List.nil_append]
  · rfl

/-- All of a layout is read. -/
theorem space_layout {gap rest : List Char} (layout : IsLayout gap) (solid : Solid rest) :
    space (gap ++ rest) = .ok () rest := by
  have pieces : ∃ us, many layoutPiece (gap ++ rest) = .ok us rest := by
    induction size : gap.length using Nat.strongRecOn generalizing gap with
    | ind size ih =>
      cases layout with
      | none => exact ⟨[], Parser.many_stop (layoutPiece_solid solid)⟩
      | @blank c text blank others =>
        have shorter := (List.dropWhile_suffix (p := isSpace) (l := text)).length_le
        obtain ⟨us, read⟩ := ih _ (size ▸ Nat.lt_succ_of_le shorter) others.dropBlanks rfl
        have piece := layoutPiece_blank blank (text ++ rest)
        rw [dropBlanks_append solid] at piece
        refine ⟨() :: us, Parser.many_read piece ?_ read⟩
        simp only [List.length_append, List.length_cons]
        omega
      | @comment line text inside others =>
        have shorter : ('\n' :: text).length < (';' :: line ++ '\n' :: text).length := by
          simp only [List.length_append, List.length_cons]
          omega
        obtain ⟨us, read⟩ := ih _ (size ▸ shorter) (.blank rfl others) rfl
        have piece : layoutPiece (';' :: line ++ '\n' :: text ++ rest) =
            .ok () ('\n' :: text ++ rest) := by
          rw [List.append_assoc]
          exact layoutPiece_comment inside
        refine ⟨() :: us, Parser.many_read piece ?_ read⟩
        simp only [List.length_append] at shorter ⊢
        omega
  obtain ⟨us, read⟩ := pieces
  exact (Parser.discard_apply (many layoutPiece) _).trans (by rw [read])

/-! ## The ends of forms -/

section Ends

variable {form : Tree} {forms : List Tree} {text rest : List Char} {word : Bool}

theorem solid_of_isSymbolChar {c : Char} (inside : isSymbolChar c = true) :
    isSpace c = false ∧ c ≠ ';' := by
  have other : isDelimiter c = false := by
    cases delimiter : isDelimiter c with
    | false => rfl
    | true => rw [isSymbolChar_of_isDelimiter delimiter] at inside; cases inside
  simp only [isDelimiter, Bool.or_eq_false_iff, decide_eq_false_iff_not] at other
  exact ⟨other.1.1.1, other.1.1.2⟩

/-- A form begins with no layout, and a list with its parenthesis. -/
theorem Renders.begins (renders : Renders form text) :
    ∃ c behind, text = c :: behind ∧ isSpace c = false ∧ c ≠ ';' ∧ (isWord form = false → c = '(') := by
  cases renders with
  | number spelling =>
    obtain ⟨c, behind, rfl, starts⟩ := begins_numeral spelling
    obtain ⟨space, semicolon⟩ := solid_of_isSymbolChar (isSymbolChar_of_startsNumeral starts)
    exact ⟨c, behind, rfl, space, semicolon, nofun⟩
  | string inside => exact ⟨'"', _, rfl, rfl, by decide, nofun⟩
  | symbol some inside other =>
    obtain ⟨c, behind, rfl⟩ := List.exists_cons_of_ne_nil some
    obtain ⟨space, semicolon⟩ := solid_of_isSymbolChar (inside c List.mem_cons_self)
    exact ⟨c, behind, rfl, space, semicolon, nofun⟩
  | list layout some inside behind => exact ⟨'(', _, rfl, rfl, by decide, fun _ => rfl⟩

theorem Renders.solid (renders : Renders form text) : Solid (text ++ rest) := by
  obtain ⟨c, behind, rfl, space, semicolon, _⟩ := renders.begins
  rintro d ⟨⟩
  exact ⟨space, semicolon⟩

/-- What is spelled behind a word ends that word. -/
theorem RendersAll.ends (renders : RendersAll true forms text) (ends : Ends rest) :
    Ends (text ++ rest) := by
  have before {gap behind : List Char} (layout : IsLayout gap)
      (others : gap = [] → Ends behind) : Ends (gap ++ behind) := by
    cases gap with
    | nil => exact others rfl
    | cons c gap =>
      rintro d ⟨⟩
      exact layout.delimits c rfl
  cases renders with
  | nil layout => exact before layout fun _ => ends
  | cons layout apart first others =>
    rw [List.append_assoc, List.append_assoc]
    refine before layout fun empty => ?_
    obtain ⟨c, behind, rfl, _, _, parenthesis⟩ := first.begins
    rintro d ⟨⟩
    rw [parenthesis (apart empty rfl)]
    rfl

end Ends

/-! ## Forms -/

/-- The parser reads every form in a text that is shorter than `n`, and none where a list ends. -/
structure Reads (p : Parser Tree) (n : Nat) : Prop where
  reads : ∀ {form text rest}, Renders form text → (isWord form = true → Ends rest) →
    (text ++ rest).length < n → p (text ++ rest) = .ok form rest
  closes : ∀ rest, p (')' :: rest) = .fail

section Reading

variable {p : Parser Tree} {n : Nat}

theorem children_read (reads : Reads p n) {forms : List Tree} {word : Bool} {text : List Char}
    (renders : RendersAll word forms text) (rest : List Char) (short : (text ++ ')' :: rest).length < n) :
    ∃ gap, IsLayout gap ∧
      many (space *> p) (text ++ ')' :: rest) = .ok forms (gap ++ ')' :: rest) := by
  induction forms generalizing word text with
  | nil =>
    cases renders with
    | nil layout =>
      refine ⟨text, layout, Parser.many_stop ?_⟩
      have closing : Solid (')' :: rest) := by rintro c ⟨⟩; decide
      exact (seqRight_read (space_layout layout closing)).trans (reads.closes rest)
  | cons form forms ih =>
    cases renders with
    | @cons _ gap _ _ text others layout apart first behind =>
      obtain ⟨gap', layout', read'⟩ := ih behind (by simp only [List.length_append] at short ⊢; omega)
      refine ⟨gap', layout', Parser.many_read ?_ ?_ read'⟩
      · rw [List.append_assoc, List.append_assoc]
        refine (seqRight_read (space_layout layout first.solid)).trans ?_
        refine reads.reads first ?_ (by simp only [List.length_append] at short ⊢; omega)
        intro leaf
        rw [leaf] at behind
        exact behind.ends (by rintro c ⟨⟩; rfl)
      · obtain ⟨c, behind, rfl, _⟩ := first.begins
        simp only [List.length_append, List.length_cons]
        omega

theorem list_read (reads : Reads p n) {gap tag text rest : List Char} {children : List Tree}
    (layout : IsLayout gap) (some : tag ≠ []) (inside : ∀ c ∈ tag, isTagChar c = true)
    (behind : RendersAll true children text)
    (short : ('(' :: gap ++ tag ++ text ++ [')'] ++ rest).length ≤ n) :
    list p ('(' :: gap ++ tag ++ text ++ [')'] ++ rest) =
      .ok (.branch (String.ofList tag) children) rest := by
  have parts : '(' :: gap ++ tag ++ text ++ [')'] ++ rest =
      '(' :: (gap ++ (tag ++ (text ++ ')' :: rest))) := by simp
  rw [parts] at short ⊢
  simp only [List.length_append, List.length_cons] at short
  have opening : Parser.char '(' ('(' :: (gap ++ (tag ++ (text ++ ')' :: rest)))) =
      .ok '(' (gap ++ (tag ++ (text ++ ')' :: rest))) := rfl
  have solid : Solid (tag ++ (text ++ ')' :: rest)) := by
    obtain ⟨c, others, rfl⟩ := List.exists_cons_of_ne_nil some
    rintro d ⟨⟩
    exact solid_of_isSymbolChar (isSymbolChar_of_isTagChar (inside c List.mem_cons_self))
  have ends : Ends (text ++ ')' :: rest) := behind.ends (by rintro c ⟨⟩; rfl)
  have tagged : Parser.takeWhile1 isTagChar (tag ++ (text ++ ')' :: rest)) =
      .ok tag (text ++ ')' :: rest) :=
    Parser.takeWhile1_word some inside (ends.stops fun _ => isSymbolChar_of_isTagChar)
  obtain ⟨last, layout', children_⟩ := children_read reads behind rest
    (by simp only [List.length_append, List.length_cons]; omega)
  have closing : space (last ++ ')' :: rest) = .ok () (')' :: rest) :=
    space_layout layout' (by rintro c ⟨⟩; decide)
  have close : Parser.char ')' (')' :: rest) = .ok ')' rest := rfl
  have first : (Parser.char '(' *> space *> Parser.takeWhile1 isTagChar)
      ('(' :: (gap ++ (tag ++ (text ++ ')' :: rest)))) = .ok tag (text ++ ')' :: rest) :=
    (seqRight_read ((seqRight_read opening).trans (space_layout layout solid))).trans tagged
  have second : (many (space *> p) <* space <* Parser.char ')') (text ++ ')' :: rest) =
      .ok children rest :=
    seqLeft_read (seqLeft_read children_ closing) close
  exact (bind_read first).trans (bind_read second)

/-- A text that begins with a character of symbols is neither a list nor a string. -/
theorem formStep_symbolic {c : Char} (inside : isSymbolChar c = true) (s : List Char) :
    formStep p (c :: s) =
      match number (c :: s) with
      | .fail => symbol (c :: s)
      | o => o := by
  have parenthesis : list p (c :: s) = .fail := by
    have other : Parser.char '(' (c :: s) = .fail := by
      apply Parser.char_other
      rintro d ⟨⟩ rfl
      cases inside
    exact bind_refused (seqRight_refused (seqRight_refused other))
  have quote : string (c :: s) = .fail := by
    apply string_other
    rintro rfl
    cases inside
  show Parser.orElse (list p) (Parser.orElse string
    (Parser.orElse number (Parser.orElse symbol Parser.failure))) (c :: s) = _
  simp only [orElse_apply, parenthesis, quote]
  cases number (c :: s) <;> cases symbol (c :: s) <;> rfl

theorem formStep_reads (reads : Reads p n) {form : Tree} {text rest : List Char}
    (renders : Renders form text) (ends : isWord form = true → Ends rest)
    (short : (text ++ rest).length ≤ n) : formStep p (text ++ rest) = .ok form rest := by
  cases renders with
  | number spelling =>
    have read := numeral_word spelling (ends rfl)
    obtain ⟨c, behind, rfl, starts⟩ := begins_numeral spelling
    rw [List.cons_append] at read ⊢
    have read' : Syntax.number (c :: (behind ++ rest)) = .ok (.number (c :: behind)) rest :=
      map_read read
    rw [formStep_symbolic (isSymbolChar_of_startsNumeral starts), read']
  | @string text inside =>
    have read : Syntax.string ('"' :: text ++ ['"'] ++ rest) = .ok (.string text) rest := by
      rw [List.append_assoc]
      exact string_quote inside rest
    show Parser.orElse (list p) (Parser.orElse Syntax.string _) ('"' :: text ++ ['"'] ++ rest) = _
    rw [orElse_apply, orElse_apply, read]
    rfl
  | @symbol text some inside other =>
    have refused : Syntax.number (text ++ rest) = .fail :=
      map_refused (numeral_other (beginsNumber_append some other (ends rfl)))
    have read : Forms.symbol (text ++ rest) = .ok (.symbol text) rest :=
      map_read (Parser.takeWhile1_word some inside ((ends rfl).stops fun _ => id))
    obtain ⟨c, behind, rfl⟩ := List.exists_cons_of_ne_nil some
    rw [List.cons_append] at refused read ⊢
    rw [formStep_symbolic (inside c List.mem_cons_self), refused, read]
  | list layout some inside behind =>
    show Parser.orElse (list p) _ _ = _
    rw [orElse_apply, list_read reads layout some inside behind short]

theorem formStep_closes (p : Parser Tree) (rest : List Char) : formStep p (')' :: rest) = .fail :=
  rfl

/-- Forms are read at every text, by induction on its length. -/
theorem form_reads (n : Nat) : Reads form n := by
  induction n with
  | zero =>
    refine ⟨fun _ _ short => absurd short (Nat.not_lt_zero _), fun rest => ?_⟩
    exact (Parser.knot_eq formStep _).trans (formStep_closes _ rest)
  | succ n ih =>
    refine ⟨fun renders ends short => ?_, ih.closes⟩
    refine (Parser.knot_eq formStep _).trans (formStep_reads ?_ renders ends (Nat.le_refl _))
    refine ⟨fun renders ends shorter => ?_, fun rest => ?_⟩
    · rw [if_pos shorter]
      exact ih.reads renders ends (Nat.lt_of_lt_of_le shorter (Nat.le_of_lt_succ short))
    · split
      · exact ih.closes rest
      · rfl

end Reading

/-! ## Sources -/

section Sources

variable {forms : List Tree} {text : List Char}

/-- All forms of a source are read, where the layout before the first one has been read already. -/
theorem forms_read {word : Bool} (renders : RendersAll word forms text) :
    ∃ gap behind, text = gap ++ behind ∧ IsLayout gap ∧ Solid behind ∧
      many (form <* space) behind = .ok forms [] := by
  induction forms generalizing word text with
  | nil =>
    cases renders with
    | nil layout =>
      have nothing : form [] = .fail := Parser.knot_eq formStep []
      exact ⟨text, [], (List.append_nil text).symm, layout, by rintro c ⟨⟩,
        Parser.many_stop (seqLeft_refused nothing)⟩
  | cons t forms ih =>
    cases renders with
    | @cons _ gap _ _ text others layout apart first behind =>
      obtain ⟨gap', behind', rfl, layout', solid, read⟩ := ih behind
      refine ⟨gap, text ++ (gap' ++ behind'), List.append_assoc .., layout, first.solid, ?_⟩
      have ends (leaf : isWord t = true) : Ends (gap' ++ behind') := by
        rw [leaf] at behind
        have nothing : Ends [] := by rintro c ⟨⟩
        simpa using behind.ends nothing
      have item : (form <* space) (text ++ (gap' ++ behind')) = .ok t behind' :=
        seqLeft_read ((form_reads _).reads first ends (Nat.lt_succ_self _))
          (space_layout layout' solid)
      refine Parser.many_read item ?_ read
      obtain ⟨c, others, rfl, _⟩ := first.begins
      simp only [List.length_append, List.length_cons]
      omega

theorem program_reads (renders : RendersAll false forms text) :
    program text = .ok forms [] := by
  obtain ⟨gap, behind, rfl, layout, solid, read⟩ := forms_read renders
  have nothing : space [] = .ok () [] := space_layout .none (by rintro c ⟨⟩)
  exact seqLeft_read ((seqRight_read (space_layout layout solid)).trans read) nothing

/-- Whatever the layout of its source is, a list of forms is read as it is: a single composite by
itself, and other forms as the children of a composite. -/
theorem read_rendered (renders : RendersAll false forms text) :
    (∀ only, forms = [only] → only.tag = "composite" → SourceForm.forms.read text = .ok only) ∧
      ((∀ only, forms = [only] → only.tag ≠ "composite") →
        SourceForm.forms.read text = .ok (.branch "composite" forms)) := by
  have read : SourceForm.forms.read text = .ok (composite forms) := by
    rw [SourceForm.read, readAll, program_reads renders]
    rfl
  rw [read]
  constructor
  · rintro ⟨tag, inside, children⟩ rfl rfl
    rfl
  · intro others
    unfold composite
    split
    · exact absurd rfl (others _ rfl)
    · rfl

end Sources

/-- A call with an operator, a number and a list, for which it takes no layout. -/
def negativeCall : Tree :=
  .branch (String.ofList ['c', 'a', 'l', 'l'])
    [.symbol ['+'], .number ['-', '2', '.', '5'], .branch (String.ofList ['x']) []]

/-- The call behind a comment. -/
theorem negativeCall_renders : RendersAll false [negativeCall]
    [';', ')', '\n', '(', 'c', 'a', 'l', 'l', ' ', '+', '\t', '-', '2', '.', '5', '(', ' ', 'x', ')',
      ')'] := by
  have comment : IsLayout (';' :: [')'] ++ '\n' :: []) :=
    .comment (List.forall_mem_singleton.mpr (by decide)) .none
  have blank {c : Char} (space : isSpace c = true) : IsLayout [c] := .blank space .none
  have fixed : IsFixed (['2'] ++ '.' :: ['5']) := .pointed ⟨by decide, List.all_eq_true.mp rfl⟩
  have number : Renders (.number ['-', '2', '.', '5']) (['-'] ++ ['2', '.', '5'] ++ []) :=
    .number (.parts (.inr (.inr rfl)) fixed .none)
  have operator : Renders (.symbol ['+']) ['+'] := .symbol (by decide) (List.all_eq_true.mp rfl) rfl
  have inner : Renders (.branch (String.ofList ['x']) []) ('(' :: [' '] ++ ['x'] ++ [] ++ [')']) :=
    .list (blank rfl) (by decide) (List.all_eq_true.mp rfl) (.nil .none)
  have children : RendersAll true
      [.symbol ['+'], .number ['-', '2', '.', '5'], .branch (String.ofList ['x']) []] _ :=
    .cons (blank (c := ' ') rfl) (by decide) operator
      (.cons (blank (c := '\t') rfl) (by decide) number
        (.cons .none (fun _ _ => rfl) inner (.nil .none)))
  have call : Renders negativeCall ('(' :: [] ++ ['c', 'a', 'l', 'l'] ++ _ ++ [')']) :=
    .list .none (by decide) (List.all_eq_true.mp rfl) children
  exact .cons comment (by decide) call (.nil .none)

/-- The call is the child of a composite, and a composite without children stays itself. -/
theorem negativeCall_read :
    SourceForm.forms.read [';', ')', '\n', '(', 'c', 'a', 'l', 'l', ' ', '+', '\t', '-', '2', '.', '5',
      '(', ' ', 'x', ')', ')'] = .ok (.branch "composite" [negativeCall]) ∧
    SourceForm.forms.read ['(', 'c', 'o', 'm', 'p', 'o', 's', 'i', 't', 'e', ')'] =
      .ok (.branch "composite" []) := by
  have composite : Renders (.branch "composite" [])
      ('(' :: [] ++ ['c', 'o', 'm', 'p', 'o', 's', 'i', 't', 'e'] ++ [] ++ [')']) :=
    .list .none (by decide) (List.all_eq_true.mp rfl) (.nil .none)
  have alone : RendersAll false [.branch "composite" []] _ :=
    .cons .none (by decide) composite (.nil .none)
  refine ⟨(read_rendered negativeCall_renders).2 ?_, (read_rendered alone).1 _ rfl rfl⟩
  rintro _ ⟨⟩
  decide

end RigidScene.Syntax.Forms
