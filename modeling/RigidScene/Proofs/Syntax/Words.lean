import RigidScene.Proofs.Syntax.Numeral
import RigidScene.Syntax.Forms

/-!
Words of the parenthesised notation.

A word is a number, a symbol or a tag.  Each of their parsers reads the whole word where something
stands behind it that is in no word: `takeWhile1_word` and `numeral_word`.  Numbers are tried before
symbols, and fail at every text that does not begin as a number does (`numeral_other`); in
particular they do not come as far as an exponent there, so nothing is aborted.
-/

namespace RigidScene

open RigidScene.Text
open RigidScene.Text.Parser (bind_apply orElse_apply takeWhile1_apply)

namespace Text.Parser

variable {accepts : Char → Bool} {word rest : List Char}

theorem takeWhile_word (all : ∀ c ∈ word, accepts c = true)
    (ends : ∀ c ∈ rest.head?, accepts c = false) :
    takeWhile accepts (word ++ rest) = .ok word rest := by
  rw [takeWhile, takeWhile_run all ends, dropWhile_run all ends]

theorem takeWhile1_word (some : word ≠ []) (all : ∀ c ∈ word, accepts c = true)
    (ends : ∀ c ∈ rest.head?, accepts c = false) :
    takeWhile1 accepts (word ++ rest) = .ok word rest := by
  cases word with
  | nil => exact absurd rfl some
  | cons c word =>
    obtain ⟨first, others⟩ := List.forall_mem_cons.mp all
    rw [List.cons_append, takeWhile1_apply, if_pos first, takeWhile_run others ends,
      dropWhile_run others ends]

end Text.Parser

namespace Syntax

open Forms (isSymbolChar isTagChar)

variable {word rest : List Char}

/-! ## The ends of words -/

/-- A character that ends a word. -/
def isDelimiter (c : Char) : Bool :=
  isSpace c || c = ';' || c = '(' || c = ')'

/-- A word that stands before the text has ended there. -/
def Ends (rest : List Char) : Prop :=
  ∀ c ∈ rest.head?, isDelimiter c = true

theorem isSymbolChar_of_isDelimiter {c : Char} (delimiter : isDelimiter c = true) :
    isSymbolChar c = false := by
  simp only [isDelimiter, isSpace, Bool.or_eq_true, decide_eq_true_eq] at delimiter
  rcases delimiter with (((((rfl | rfl) | rfl) | rfl) | rfl) | rfl) | rfl <;> decide

theorem isSymbolChar_of_isTagChar {c : Char} (tag : isTagChar c = true) :
    isSymbolChar c = true := by
  simp only [isTagChar, Bool.or_eq_true, decide_eq_true_eq] at tag
  rcases tag with alphanumeric | rfl
  · rw [isSymbolChar, alphanumeric, Bool.true_or]
  · decide

theorem isSymbolChar_of_isDigit {c : Char} (digit : c.isDigit = true) : isSymbolChar c = true := by
  have small : c.toNat < 0x80 := Nat.lt_of_le_of_lt (digit_bounds digit).2 (by decide)
  rw [isSymbolChar, isAlphanumeric, if_pos small, Char.isAlphanum, digit, Bool.or_true, Bool.true_or]

/-- No character of a word stands where a word has ended. -/
theorem Ends.stops (ends : Ends rest) {accepts : Char → Bool}
    (narrow : ∀ c, accepts c = true → isSymbolChar c = true) :
    ∀ c ∈ rest.head?, accepts c = false := by
  intro c first
  have other := isSymbolChar_of_isDelimiter (ends c first)
  cases accepted : accepts c with
  | false => rfl
  | true => rw [narrow c accepted] at other; cases other

/-! ## Numbers -/

theorem sign_word (sign_ : IsSign word) (unsigned : Unsigned rest) :
    sign (word ++ rest) = .ok word rest := by
  rcases sign_ with rfl | rfl | rfl
  · have other : Parser.satisfy (fun c => c = '+' || c = '-') rest = .fail :=
      Parser.satisfy_other fun c first => by simpa using unsigned c first
    rw [List.nil_append, sign, bind_apply, Parser.opt_apply, other]
    rfl
  · rfl
  · rfl

theorem digits_word (digits : IsDigits word) (ends : ∀ c ∈ rest.head?, c.isDigit = false) :
    Parser.takeWhile1 Char.isDigit (word ++ rest) = .ok word rest :=
  Parser.takeWhile1_word digits.some digits.all ends

theorem fixedDigits_word (fixed : IsFixed word)
    (ends : ∀ c ∈ rest.head?, c.isDigit = false ∧ c ≠ '.') :
    fixedDigits (word ++ rest) = .ok word rest := by
  have stops : ∀ c ∈ rest.head?, c.isDigit = false := fun c first => (ends c first).1
  cases fixed with
  | whole digits =>
    have point : Parser.char '.' rest = .fail :=
      Parser.char_other fun c first => (ends c first).2
    simp only [fixedDigits, orElse_apply, bind_apply, digits_word digits stops, Parser.opt_apply,
      point, Parser.pure_apply, Option.getD_none, List.append_nil]
  | @pointed whole fraction digits =>
    obtain ⟨wholes, fractions⟩ := List.forall_mem_append.mp digits.all
    have point : Parser.char '.' ('.' :: fraction ++ rest) = .ok '.' (fraction ++ rest) := rfl
    by_cases empty : whole = []
    · subst empty
      have first : Parser.takeWhile1 Char.isDigit ('.' :: fraction ++ rest) = .fail := rfl
      have second : Parser.takeWhile1 Char.isDigit (fraction ++ rest) = .ok fraction rest :=
        digits_word digits stops
      simp only [List.nil_append, fixedDigits, orElse_apply, bind_apply, first, point, second,
        Parser.pure_apply]
    · have first : Parser.takeWhile1 Char.isDigit (whole ++ ('.' :: fraction ++ rest)) =
          .ok whole ('.' :: fraction ++ rest) :=
        digits_word ⟨empty, wholes⟩ (by rintro c ⟨⟩; rfl)
      simp only [List.append_assoc, fixedDigits, orElse_apply, bind_apply, first, Parser.opt_apply,
        point, Parser.takeWhile_word fractions stops, Parser.pure_apply, Option.getD_some]

theorem exponent_word (exponent : IsExponent word) (ends : Ends rest) :
    Parser.opt exponentPart (word ++ rest) =
      .ok (if word = [] then none else some word) rest := by
  have stops := ends.stops fun _ => isSymbolChar_of_isDigit
  cases exponent with
  | none =>
    have other : ∀ c ∈ rest.head?, (c = 'e' || c = 'E') = false := by
      apply ends.stops
      intro c mark
      rw [Bool.or_eq_true, decide_eq_true_eq, decide_eq_true_eq] at mark
      rcases mark with rfl | rfl <;> decide
    have mark : exponentPart rest = .fail := by
      rw [exponentPart, bind_apply, Parser.satisfy_other other]
    rw [List.nil_append, Parser.opt_apply, mark, if_pos rfl]
  | @power mark sign digits is_mark is_sign are_digits =>
    have first : Parser.satisfy (fun c => c = 'e' || c = 'E') (mark :: (sign ++ (digits ++ rest))) =
        .ok mark (sign ++ (digits ++ rest)) :=
      if_pos (by simpa using is_mark)
    have unsigned : Unsigned (digits ++ rest) := are_digits.unsigned rest
    have last : Parser.required (Parser.takeWhile1 Char.isDigit) (digits ++ rest) =
        .ok digits rest := by
      rw [Parser.required, digits_word are_digits stops]
    simp only [Parser.opt_apply, List.cons_append, List.append_assoc, exponentPart, bind_apply,
      first, sign_word is_sign unsigned, last, Parser.pure_apply, reduceCtorEq, if_false]

/-- A number is read as it is spelled. -/
theorem numeral_word (number : IsNumeral word) (ends : Ends rest) :
    numeral (word ++ rest) = .ok word rest := by
  cases number with
  | @parts sign fixed exponent sign_ fixed_ exponent_ =>
    have unsigned : Unsigned (fixed ++ (exponent ++ rest)) := fixed_.unsigned _
    have stops : ∀ c ∈ (exponent ++ rest).head?, c.isDigit = false ∧ c ≠ '.' := by
      cases exponent with
      | nil =>
        intro c first
        refine ⟨ends.stops (fun _ => isSymbolChar_of_isDigit) c first, ?_⟩
        rintro rfl
        cases ends '.' first
      | cons d exponent => exact exponent_.begins
    simp only [numeral, bind_apply, List.append_assoc, sign_word sign_ unsigned,
      fixedDigits_word fixed_ stops, exponent_word exponent_ ends, Parser.pure_apply]
    split <;> simp_all

/-- A character that numbers begin with. -/
def startsNumeral (c : Char) : Bool :=
  c.isDigit || ['+', '-', '.'].contains c

theorem startsNumeral_of_isDigit {c : Char} (digit : c.isDigit = true) : startsNumeral c = true := by
  rw [startsNumeral, digit, Bool.true_or]

/-- What numbers begin with stands in symbols, too. -/
theorem isSymbolChar_of_startsNumeral {c : Char} (starts : startsNumeral c = true) :
    isSymbolChar c = true := by
  simp only [startsNumeral, Bool.or_eq_true, List.contains_iff_mem, List.mem_cons,
    List.not_mem_nil, or_false] at starts
  rcases starts with digit | rfl | rfl | rfl
  · exact isSymbolChar_of_isDigit digit
  · decide
  · decide
  · decide

theorem begins_numeral (number : IsNumeral word) :
    ∃ c behind, word = c :: behind ∧ startsNumeral c = true := by
  obtain ⟨sign_, fixed, exponent⟩ := number
  rcases sign_ with rfl | rfl | rfl
  · cases fixed with
    | whole digits =>
      obtain ⟨c, others, rfl⟩ := List.exists_cons_of_ne_nil digits.some
      exact ⟨c, _, rfl, startsNumeral_of_isDigit (digits.all c List.mem_cons_self)⟩
    | @pointed whole fraction digits =>
      cases whole with
      | nil => exact ⟨'.', _, rfl, rfl⟩
      | cons c whole => exact ⟨c, _, rfl, startsNumeral_of_isDigit (digits.all c List.mem_cons_self)⟩
  · exact ⟨'+', _, rfl, rfl⟩
  · exact ⟨'-', _, rfl, rfl⟩

/-- The text begins with a digit, or with a point and a digit. -/
def beginsDigits : List Char → Bool
  | '.' :: c :: _ => c.isDigit
  | c :: _ => c.isDigit
  | [] => false

/-- The text begins as a number does: with a sign or none, and digits. -/
def beginsNumber : List Char → Bool
  | '+' :: text => beginsDigits text
  | '-' :: text => beginsDigits text
  | text => beginsDigits text

theorem beginsDigits_point (text : List Char) :
    beginsDigits ('.' :: text) = text.head?.any Char.isDigit := by
  cases text <;> rfl

theorem beginsDigits_cons {c : Char} (point : c ≠ '.') (text : List Char) :
    beginsDigits (c :: text) = c.isDigit := by
  simp [beginsDigits, point]

theorem Ends.beginsDigits (ends : Ends rest) : beginsDigits rest = false := by
  cases rest with
  | nil => rfl
  | cons c rest =>
    have delimiter := ends c rfl
    simp only [isDelimiter, isSpace, Bool.or_eq_true, decide_eq_true_eq] at delimiter
    rcases delimiter with (((((rfl | rfl) | rfl) | rfl) | rfl) | rfl) | rfl <;> rfl

theorem beginsDigits_append (other : beginsDigits word = false) (ends : Ends rest) :
    beginsDigits (word ++ rest) = false := by
  cases word with
  | nil => exact ends.beginsDigits
  | cons c word =>
    rw [List.cons_append]
    by_cases point : c = '.'
    · subst point
      rw [beginsDigits_point] at other ⊢
      cases word with
      | nil =>
        cases rest with
        | nil => rfl
        | cons d rest => exact ends.stops (fun _ => isSymbolChar_of_isDigit) d rfl
      | cons d word => exact other
    · rw [beginsDigits_cons point] at other ⊢
      exact other

theorem beginsNumber_eq (unsigned : Unsigned rest) : beginsNumber rest = beginsDigits rest := by
  unfold beginsNumber
  split
  · exact absurd rfl (unsigned '+' rfl).1
  · exact absurd rfl (unsigned '-' rfl).2
  · rfl

theorem beginsNumber_append (some : word ≠ []) (other : beginsNumber word = false)
    (ends : Ends rest) : beginsNumber (word ++ rest) = false := by
  cases word with
  | nil => exact absurd rfl some
  | cons c word =>
    by_cases plus : c = '+'
    · subst plus
      show beginsDigits (word ++ rest) = false
      exact beginsDigits_append other ends
    by_cases minus : c = '-'
    · subst minus
      show beginsDigits (word ++ rest) = false
      exact beginsDigits_append other ends
    · have unsigned (text : List Char) : Unsigned (c :: text) := by
        rintro d ⟨⟩
        exact ⟨plus, minus⟩
      rw [beginsNumber_eq (unsigned word)] at other
      rw [List.cons_append, beginsNumber_eq (unsigned _), ← List.cons_append]
      exact beginsDigits_append other ends

theorem beginsDigits_false (other : beginsDigits rest = false) :
    (∀ c ∈ rest.head?, c.isDigit = false) ∧
      ∀ text, rest = '.' :: text → ∀ c ∈ text.head?, c.isDigit = false := by
  unfold beginsDigits at other
  split at other
  · refine ⟨by rintro c ⟨⟩; rfl, ?_⟩
    rintro text ⟨⟩ c ⟨⟩
    exact other
  · rename_i c text pointless
    refine ⟨by rintro d ⟨⟩; exact other, ?_⟩
    rintro _ ⟨⟩ d first
    cases text with
    | nil => cases first
    | cons e text => exact absurd rfl (pointless e text rfl)
  · exact ⟨by rintro c ⟨⟩, by rintro _ ⟨⟩⟩

theorem fixedDigits_other (other : beginsDigits rest = false) : fixedDigits rest = .fail := by
  obtain ⟨digits, fraction⟩ := beginsDigits_false other
  have first : Parser.takeWhile1 Char.isDigit rest = .fail := Parser.takeWhile1_other digits
  by_cases pointed : ∃ text, rest = '.' :: text
  · obtain ⟨text, rfl⟩ := pointed
    have point : Parser.char '.' ('.' :: text) = .ok '.' text := rfl
    have second : Parser.takeWhile1 Char.isDigit text = .fail :=
      Parser.takeWhile1_other (fraction text rfl)
    simp only [fixedDigits, orElse_apply, bind_apply, first, point, second]
  · have point : Parser.char '.' rest = .fail := by
      apply Parser.char_other
      rintro c begun rfl
      exact pointed (List.head?_eq_some_iff.mp begun)
    simp only [fixedDigits, orElse_apply, bind_apply, first, point]

/-- Where no number begins there is no number, and nothing to abort. -/
theorem numeral_other (other : beginsNumber rest = false) : numeral rest = .fail := by
  unfold beginsNumber at other
  split at other
  · rename_i text
    have read : sign ('+' :: text) = .ok ['+'] text := rfl
    simp only [numeral, bind_apply, read, fixedDigits_other other]
  · rename_i text
    have read : sign ('-' :: text) = .ok ['-'] text := rfl
    simp only [numeral, bind_apply, read, fixedDigits_other other]
  · rename_i no_plus no_minus
    have unsigned : Unsigned rest := by
      intro c first
      obtain ⟨text, begun⟩ := List.head?_eq_some_iff.mp first
      refine ⟨?_, ?_⟩ <;> rintro rfl
      · exact no_plus text begun
      · exact no_minus text begun
    have read : sign rest = .ok [] rest := sign_word (.inl rfl) unsigned
    simp only [numeral, bind_apply, read, fixedDigits_other other]

end Syntax

end RigidScene
