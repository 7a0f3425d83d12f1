import RigidScene.Proofs.Syntax.Scanning
import RigidScene.Proofs.Syntax.Words

/-!
Names of the statement notation as operands.

A name that is not the name of a shape is read as a leaf, whatever keyword it may be or begin with,
if nothing stands behind it that makes a call, a function or a body of it (`Apart`): rules that a
keyword begins fail behind the keyword, all others at the first character.
-/

namespace RigidScene.Syntax

open RigidScene.Text
open RigidScene.Text.Parser (bind_read bind_refused knot_eq map_read map_refused orElse_apply
  seqLeft_refused seqRight_read seqRight_refused)

/-- Given characters are read where the text begins with them. -/
theorem text_cases (word s : List Char) : Parser.text word s = .fail ∨
    ∃ rest, s = word ++ rest ∧ Parser.text word s = .ok () rest := by
  induction word generalizing s with
  | nil => exact .inr ⟨s, rfl, rfl⟩
  | cons c word ih =>
    cases s with
    | nil => exact .inl rfl
    | cons d s =>
      by_cases same : d = c
      · subst same
        have behind : Parser.text (d :: word) (d :: s) = Parser.text word s := if_pos rfl
        rw [behind]
        obtain failed | ⟨rest, rfl, read⟩ := ih s
        · exact .inl failed
        · exact .inr ⟨rest, rfl, read⟩
      · exact .inl (if_neg same)

/-- Alternatives that fail are passed over. -/
theorem oneOf_refused {α : Type} {ps : List (Parser α)} (qs : List (Parser α)) {s : List Char}
    (refused : ∀ p ∈ ps, p s = .fail) : Parser.oneOf (ps ++ qs) s = Parser.oneOf qs s := by
  induction ps with
  | nil => rfl
  | cons p ps ih =>
    obtain ⟨first, others⟩ := List.forall_mem_cons.mp refused
    rw [← ih others, List.cons_append, Parser.oneOf, List.foldr_cons, orElse_apply, first]
    rfl

namespace Statements

/-- The word is a name: letters, digits and underscores, no digit first. -/
def IsIdentifier : List Char → Prop
  | [] => False
  | c :: word => startsName c = true ∧ ∀ d ∈ word, continuesName d = true

/-- A name that stands before the text has ended there, and nothing in the text makes a call, a
function or a body of it. -/
structure Apart (rest : List Char) : Prop where
  ends : ∀ c ∈ rest.head?, continuesName c = false
  next : ∀ c ∈ (skip false rest).head?, c ≠ '(' ∧ c ≠ '"' ∧ startsName c = false

variable {name rest : List Char} {c : Char}

/-! ## Characters of names -/

theorem continuesName_of_startsName (starts : startsName c = true) : continuesName c = true := by
  rw [startsName, Bool.or_eq_true] at starts
  rw [continuesName, Bool.or_eq_true]
  exact starts.imp_left isAlphanumeric_of_isAlphabetic

theorem isSpace_of_continuesName (continues : continuesName c = true) : isSpace c = false := by
  by_contra blank
  simp only [Bool.not_eq_false, isSpace, Bool.or_eq_true, decide_eq_true_eq] at blank
  rcases blank with ((rfl | rfl) | rfl) | rfl <;> cases continues

theorem ne_of_startsName {d : Char} (starts : startsName c = true) (other : startsName d = false) :
    c ≠ d := by
  rintro rfl
  rw [starts] at other
  cases other

theorem isDigit_of_startsName (starts : startsName c = true) : c.isDigit = false := by
  by_contra digit
  rw [Bool.not_eq_false] at digit
  obtain ⟨above, below⟩ := digit_bounds digit
  rw [startsName, Bool.or_eq_true, decide_eq_true_eq] at starts
  rcases starts with letter | rfl
  · rw [isAlphabetic, if_pos (by omega)] at letter
    delta Char.isAlpha Char.isUpper Char.isLower at letter
    simp only [Bool.or_eq_true, Bool.and_eq_true, decide_eq_true_eq, ge_iff_le,
      UInt32.le_iff_toNat_le] at letter
    change 48 ≤ c.val.toNat at above
    change c.val.toNat ≤ 57 at below
    have : 'A'.val.toNat = 65 := rfl
    have : 'a'.val.toNat = 97 := rfl
    omega
  · cases digit

section Identifiers

variable (identifier : IsIdentifier name)

include identifier

theorem IsIdentifier.all : ∀ c ∈ name, continuesName c = true := by
  cases name with
  | nil => exact identifier.elim
  | cons c word =>
    exact List.forall_mem_cons.mpr ⟨continuesName_of_startsName identifier.1, identifier.2⟩

theorem IsIdentifier.head (rest : List Char) :
    ∃ c word, name ++ rest = c :: word ∧ startsName c = true := by
  cases name with
  | nil => exact identifier.elim
  | cons c word => exact ⟨c, word ++ rest, rfl, identifier.1⟩

/-- No layout begins where a name does. -/
theorem skip_name (rest : List Char) : skip false (name ++ rest) = name ++ rest := by
  obtain ⟨c, word, begins, starts⟩ := identifier.head rest
  have solid := isSpace_of_continuesName (continuesName_of_startsName starts)
  rw [begins]
  refine skip_stop solid ?_
  rintro _ rfl
  cases starts

/-! ## Rules that do not read names -/

theorem char_name (other : startsName c = false) : Parser.char c (name ++ rest) = .fail := by
  obtain ⟨d, word, begins, starts⟩ := identifier.head rest
  rw [begins]
  exact if_neg fun same => ne_of_startsName starts other (of_decide_eq_true same)

theorem number_name : number (name ++ rest) = .fail := by
  obtain ⟨c, word, begins, starts⟩ := identifier.head rest
  have unsigned : Unsigned (c :: word) := by
    rintro _ ⟨⟩
    exact ⟨ne_of_startsName starts rfl, ne_of_startsName starts rfl⟩
  have other : beginsDigits (c :: word) = false := by
    unfold beginsDigits
    split
    · rename_i begun
      cases begun
      cases starts
    · rename_i begun
      cases begun
      exact isDigit_of_startsName starts
    · rfl
  rw [begins]
  exact Parser.map_refused (numeral_other ((beginsNumber_eq unsigned).trans other))

theorem string_name : string (name ++ rest) = .fail :=
  bind_refused (char_name identifier rfl)

end Identifiers

/-- A keyword that is read where a name stands is the name or the first part of it. -/
theorem keyword_name (word name : List Char) (keyword : ∀ c ∈ word, continuesName c = true)
    (ends : ∀ c ∈ rest.head?, continuesName c = false) :
    Parser.text word (name ++ rest) = .fail ∨
      ∃ more, name = word ++ more ∧ Parser.text word (name ++ rest) = .ok () (more ++ rest) := by
  refine (text_cases word (name ++ rest)).imp_right ?_
  rintro ⟨behind, whole, read⟩
  rcases List.append_eq_append_iff.mp whole with ⟨more, rfl, rfl⟩ | ⟨more, rfl, rfl⟩
  · cases more with
    | nil => exact ⟨[], by simp, read⟩
    | cons c more =>
      have continues := keyword c (by simp)
      rw [ends c rfl] at continues
      cases continues
  · exact ⟨more, rfl, read⟩

/-- A gap ends where all layout does. -/
theorem gap_cases (s : List Char) : gap s = .fail ∨ gap s = .ok () (skip false s) := by
  cases s with
  | nil => exact .inl rfl
  | cons c s =>
    rw [gap_apply]
    by_cases blank : isSpace c = true
    · rw [if_pos blank, skip_blank blank]
      exact .inr rfl
    · rw [if_neg blank]
      exact .inl rfl

/-- No name and no string stands behind the name, with layout before it. -/
theorem Apart.no_shape (apart : Apart rest) :
    Parser.orElse symbol string (skip false rest) = .fail := by
  have name : symbol (skip false rest) = .fail := by
    refine map_refused ?_
    rw [Statements.identifier, seq_eq_bind_map]
    exact bind_refused (map_refused (Parser.satisfy_other fun c first => (apart.next c first).2.2))
  rw [orElse_apply, name]
  exact bind_refused (Parser.char_other fun c first => (apart.next c first).2.1)

section Operands

variable (identifier : IsIdentifier name) (apart : Apart rest)

include identifier apart

theorem identifier_name : Statements.identifier (name ++ rest) = .ok name rest := by
  cases name with
  | nil => exact identifier.elim
  | cons c word =>
    have first : Parser.satisfy startsName (c :: word ++ rest) = .ok c (word ++ rest) :=
      if_pos identifier.1
    rw [Statements.identifier, seq_eq_bind_map, bind_read (map_read first)]
    exact map_read (Parser.takeWhile_word identifier.2 apart.ends)

theorem symbol_name : symbol (name ++ rest) = .ok (Tree.symbol name) rest :=
  map_read (identifier_name identifier apart)

theorem function_name (p : Parser Tree) : function p (name ++ rest) = .fail := by
  refine bind_refused (seqLeft_refused (seqRight_refused ?_))
  obtain failed | ⟨more, rfl, read⟩ := keyword_name ['f', 'n'] name
    (List.all_eq_true.mp rfl) apart.ends
  · exact seqRight_refused (seqRight_refused failed)
  have spaced : (Parser.text ['f', 'n'] *> space) ('f' :: 'n' :: more ++ rest) =
      .ok () (skip false (more ++ rest)) := (seqRight_read read).trans (space_apply _)
  refine (bind_read spaced).trans (Parser.char_other ?_)
  cases more with
  | nil => exact fun c first => (apart.next c first).1
  | cons d more =>
    have continues : continuesName d = true := identifier.2 d (by simp)
    rw [List.cons_append, skip_stop (isSpace_of_continuesName continues)]
    · rintro _ ⟨⟩ rfl
      cases continues
    · rintro _ rfl
      cases continues

theorem call_name (p : Parser Tree) : call p (name ++ rest) = .fail := by
  refine bind_refused (seqLeft_refused ((bind_read (symbol_name identifier apart)).trans ?_))
  refine bind_refused (Parser.char_other fun c first => ?_)
  rintro rfl
  obtain ⟨behind, rfl⟩ := List.head?_eq_some_iff.mp first
  have here : skip false ('(' :: behind) = '(' :: behind := skip_stop rfl (by rintro _ ⟨⟩)
  exact (apart.next '(' (by rw [here]; rfl)).1 rfl

/-- A name is a primary expression. -/
theorem primary_name : primary (name ++ rest) = .ok (Tree.symbol name) rest := by
  rw [primary, knot_eq]
  generalize (fun t => _ : Parser Tree) = p
  have others : ∀ rule ∈ [number, string, vector p, parenthesized p, scope p, function p, lambda p,
      call p], rule (name ++ rest) = .fail := by
    have opening {c : Char} (other : startsName c = false) : Parser.char c (name ++ rest) = .fail :=
      char_name identifier other
    simp only [List.forall_mem_cons, List.not_mem_nil, false_imp_iff, implies_true, and_true]
    refine ⟨number_name identifier, string_name identifier, ?_, ?_, ?_,
      function_name identifier apart p, ?_, call_name identifier apart p⟩
    · exact bind_refused (seqRight_refused (seqRight_refused (opening rfl)))
    · exact seqLeft_refused (seqLeft_refused (seqRight_refused (seqRight_refused (opening rfl))))
    · exact bind_refused (seqLeft_refused (seqLeft_refused (seqRight_refused (opening rfl))))
    · exact bind_refused (seqLeft_refused (seqRight_refused (opening rfl)))
  refine (oneOf_refused [symbol] others).trans ?_
  rw [Parser.oneOf, List.foldr_cons, orElse_apply, symbol_name identifier apart]

/-- A name that is not the name of a shape is not read as a body. -/
theorem body_name (free : Shape.ofName? (String.ofList name) = none) (p : Parser Tree) :
    body p (name ++ rest) = .fail := by
  have named : (Parser.text "body".toList *> gap *> Parser.orElse symbol string) (name ++ rest) =
      .fail := by
    obtain failed | ⟨more, rfl, read⟩ := keyword_name "body".toList name
      (List.all_eq_true.mp rfl) apart.ends
    · exact seqRight_refused (seqRight_refused failed)
    have after : (Parser.text "body".toList *> gap) ("body".toList ++ more ++ rest) =
        gap (more ++ rest) := seqRight_read read
    cases more with
    | nil =>
      obtain failed | read := gap_cases rest
      · exact seqRight_refused (after.trans failed)
      · exact (seqRight_read (after.trans read)).trans apart.no_shape
    | cons d more =>
      refine seqRight_refused (after.trans ?_)
      rw [List.cons_append, gap_apply, isSpace_of_continuesName (identifier.2 d (by simp))]
      rfl
  have shape : shapeName (name ++ rest) = .fail := by
    rw [shapeName, bind_read (identifier_name identifier apart), free]
    rfl
  refine bind_refused ?_
  rw [orElse_apply, named]
  exact shape

/-- A name that is not the name of a shape is an operand. -/
theorem application_name (free : Shape.ofName? (String.ofList name) = none) :
    application primary (name ++ rest) = .ok (Tree.symbol name) rest := by
  rw [application, orElse_apply, body_name identifier apart free]
  exact primary_name identifier apart

end Operands

end Statements

end RigidScene.Syntax
