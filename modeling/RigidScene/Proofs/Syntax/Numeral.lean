import RigidScene.Decimal.Text
import RigidScene.Proofs.Text.Yields
import RigidScene.Syntax.Token

/-!
The numbers of a source can be read.

`IsNumeral` is the spelling of numbers by itself: a sign, digits with a point, an exponent.  The
token that both notations share yields nothing else (`numeral_yields`), no blank stands in such a
text, and `Decimal.read?` finds a number in it (`read?_numeral`).
-/

namespace RigidScene

open RigidScene.Text (isBlank trimBlanks)
open RigidScene.Text.Parser (Yields)

/-! ## The spelling of numbers -/

/-- A sign or nothing. -/
def IsSign (text : List Char) : Prop :=
  text = [] ∨ text = ['+'] ∨ text = ['-']

/-- Digits, at least one. -/
structure IsDigits (text : List Char) : Prop where
  some : text ≠ []
  all : ∀ c ∈ text, c.isDigit = true

/-- Digits, which may have a point among, before or behind them. -/
inductive IsFixed : List Char → Prop where
  | whole {digits} (digits_ : IsDigits digits) : IsFixed digits
  | pointed {whole fraction} (digits : IsDigits (whole ++ fraction)) :
    IsFixed (whole ++ '.' :: fraction)

/-- A power of ten or nothing. -/
inductive IsExponent : List Char → Prop where
  | none : IsExponent []
  | power {mark sign digits} (mark_ : mark = 'e' ∨ mark = 'E') (sign_ : IsSign sign)
    (digits_ : IsDigits digits) : IsExponent (mark :: sign ++ digits)

/-- The spelling of a number. -/
inductive IsNumeral : List Char → Prop where
  | parts {sign fixed exponent} (sign_ : IsSign sign) (fixed_ : IsFixed fixed)
    (exponent_ : IsExponent exponent) : IsNumeral (sign ++ fixed ++ exponent)

/-! ## Tokens -/

namespace Syntax

theorem sign_yields : sign.Yields IsSign := by
  apply (Yields.satisfy _).opt.bind
  intro c found
  apply Yields.pure
  cases c with
  | none => exact .inl rfl
  | some c =>
    have either := found c rfl
    simp only [Bool.or_eq_true, decide_eq_true_eq] at either
    rcases either with rfl | rfl
    · exact .inr (.inl rfl)
    · exact .inr (.inr rfl)

theorem digits_yields : (Text.Parser.takeWhile1 Char.isDigit).Yields IsDigits :=
  (Yields.takeWhile1 _).mono fun _ found => ⟨found.1, found.2⟩

theorem fixedDigits_yields : fixedDigits.Yields IsFixed := by
  apply Yields.orElse
  · apply digits_yields.bind
    intro whole digits
    have fraction : Yields (do
        let point ← Text.Parser.char '.'
        let after ← Text.Parser.takeWhile Char.isDigit
        return point :: after)
        fun text => ∃ after, text = '.' :: after ∧ ∀ c ∈ after, c.isDigit = true := by
      apply (Yields.satisfy _).bind
      intro point is_point
      apply (Yields.takeWhile _).bind
      intro after all
      exact .pure ⟨after, by rw [of_decide_eq_true is_point], all⟩
    apply fraction.opt.bind
    intro found pointed
    apply Yields.pure
    cases found with
    | none => simpa using IsFixed.whole digits
    | some text =>
      obtain ⟨after, rfl, all⟩ := pointed text rfl
      refine .pointed ⟨by simp [digits.some], ?_⟩
      intro c member
      exact (List.mem_append.mp member).elim (digits.all c) (all c)
  · apply (Yields.satisfy _).bind
    intro point is_point
    apply digits_yields.bind
    intro after digits
    apply Yields.pure
    rw [of_decide_eq_true is_point]
    have pointed : IsFixed ([] ++ '.' :: after) := .pointed digits
    exact pointed

theorem exponentPart_yields : exponentPart.Yields IsExponent := by
  apply (Yields.satisfy _).bind
  intro mark is_mark
  apply sign_yields.bind
  intro sign is_sign
  apply digits_yields.required.bind
  intro digits are_digits
  simp only [Bool.or_eq_true, decide_eq_true_eq] at is_mark
  exact .pure (.power is_mark is_sign are_digits)

/-- Numbers are spelled as numbers are. -/
theorem numeral_yields : numeral.Yields IsNumeral := by
  apply sign_yields.bind
  intro sign is_sign
  apply fixedDigits_yields.bind
  intro fixed is_fixed
  apply exponentPart_yields.opt.bind
  intro exponent found
  apply Yields.pure
  cases exponent with
  | none => exact .parts is_sign is_fixed .none
  | some exponent => exact .parts is_sign is_fixed (found exponent rfl)

end Syntax

/-! ## Reading -/

theorem digit_bounds {c : Char} (digit : c.isDigit = true) : 48 ≤ c.toNat ∧ c.toNat ≤ 57 := by
  simp only [Char.isDigit, Bool.and_eq_true, decide_eq_true_eq] at digit
  exact digit

theorem not_isBlank_of_isDigit {c : Char} (digit : c.isDigit = true) : isBlank c = false := by
  have bounds := digit_bounds digit
  simp only [isBlank, Text.inRanges, List.any_cons, List.any_nil, Bool.or_false, Bool.or_eq_false_iff,
    Bool.and_eq_false_iff, decide_eq_false_iff_not]
  omega

/-- The text does not begin with a sign. -/
def Unsigned (text : List Char) : Prop :=
  ∀ c ∈ text.head?, c ≠ '+' ∧ c ≠ '-'

theorem IsDigits.unsigned {digits : List Char} (h : IsDigits digits) (rest : List Char) :
    Unsigned (digits ++ rest) := by
  intro c first
  cases digits with
  | nil => exact absurd rfl h.some
  | cons d ds =>
    cases first
    have digit := h.all c List.mem_cons_self
    constructor <;> rintro rfl <;> cases digit

theorem IsFixed.unsigned {fixed : List Char} (h : IsFixed fixed) (rest : List Char) :
    Unsigned (fixed ++ rest) := by
  cases h with
  | whole digits => exact digits.unsigned rest
  | @pointed whole fraction digits =>
    cases whole with
    | nil =>
      rintro c ⟨⟩
      decide
    | cons d ds =>
      intro c first
      exact digits.unsigned [] c first

/-- Behind an exponent mark, as in front of a number, the sign is split off. -/
theorem splitSign_append {sign rest : List Char} (h : IsSign sign) (unsigned : Unsigned rest) :
    ∃ negative, Decimal.splitSign (sign ++ rest) = (negative, rest) := by
  rcases h with rfl | rfl | rfl
  · rw [List.nil_append]
    unfold Decimal.splitSign
    split
    · exact absurd rfl (unsigned '-' rfl).2
    · exact absurd rfl (unsigned '+' rfl).1
    · exact ⟨false, rfl⟩
  · exact ⟨false, rfl⟩
  · exact ⟨true, rfl⟩

/-- Neither a digit nor a point begins an exponent. -/
theorem IsExponent.begins {exponent : List Char} (h : IsExponent exponent) :
    ∀ c ∈ exponent.head?, c.isDigit = false ∧ c ≠ '.' := by
  cases h with
  | none => rintro c ⟨⟩
  | power mark _ _ =>
    rintro c ⟨⟩
    rcases mark with rfl | rfl <;> decide

theorem readExponent?_exponent {exponent : List Char} (h : IsExponent exponent) :
    ∃ e, Decimal.readExponent? exponent = some e := by
  cases h with
  | none => exact ⟨0, rfl⟩
  | @power mark sign digits mark_ sign_ digits_ =>
    have unsigned : Unsigned digits := by simpa using digits_.unsigned []
    obtain ⟨negative, split⟩ := splitSign_append sign_ unsigned
    have all : digits.all Char.isDigit = true := List.all_eq_true.mpr digits_.all
    simp [Decimal.readExponent?, mark_, split, digits_.some, all]

section Runs

variable {accepts : Char → Bool} {word rest : List Char}

/-- A run of characters ends where something else begins. -/
theorem takeWhile_run (all : ∀ c ∈ word, accepts c = true)
    (ends : ∀ c ∈ rest.head?, accepts c = false) : (word ++ rest).takeWhile accepts = word := by
  rw [List.takeWhile_append_of_pos all]
  cases rest with
  | nil => simp
  | cons c rest => simp [ends c rfl]

theorem dropWhile_run (all : ∀ c ∈ word, accepts c = true)
    (ends : ∀ c ∈ rest.head?, accepts c = false) : (word ++ rest).dropWhile accepts = rest := by
  rw [List.dropWhile_append_of_pos all]
  cases rest with
  | nil => rfl
  | cons c rest => simp [ends c rfl]

end Runs

theorem readDigits?_fixed {fixed exponent : List Char} (h : IsFixed fixed)
    (power : IsExponent exponent) : ∃ x, Decimal.readDigits? (fixed ++ exponent) = some x := by
  obtain ⟨e, read⟩ := readExponent?_exponent power
  have ends : ∀ c ∈ exponent.head?, c.isDigit = false := fun c first => (power.begins c first).1
  cases h with
  | whole digits =>
    have run := takeWhile_run digits.all ends
    have left := dropWhile_run digits.all ends
    unfold Decimal.readDigits?
    simp only [run, left]
    split
    · exact absurd rfl (power.begins '.' rfl).2
    · simp only [digits.some, false_and, if_false, read, Option.map_some]
      exact ⟨_, rfl⟩
  | @pointed whole fraction digits =>
    have all := List.forall_mem_append.mp digits.all
    have point : ∀ c ∈ ('.' :: fraction ++ exponent).head?, c.isDigit = false := by
      rintro c ⟨⟩
      rfl
    have run := takeWhile_run all.1 point
    have left := dropWhile_run all.1 point
    rw [← List.append_assoc] at run left
    have some : ¬ (whole = [] ∧ fraction = []) := by simpa using digits.some
    unfold Decimal.readDigits?
    simp only [run, left, List.cons_append, takeWhile_run all.2 ends,
      dropWhile_run all.2 ends, some, if_false, read, Option.map_some]
    exact ⟨_, rfl⟩

theorem readMagnitude?_fixed {fixed exponent : List Char} (h : IsFixed fixed)
    (power : IsExponent exponent) : ∃ x, Decimal.readMagnitude? (fixed ++ exponent) = some x := by
  unfold Decimal.readMagnitude?
  dsimp only
  split
  · exact ⟨_, rfl⟩
  · split
    · exact ⟨_, rfl⟩
    · exact readDigits?_fixed h power

/-- A number is found in its spelling. -/
theorem read?_numeral {text : List Char} (h : IsNumeral text) :
    ∃ x, Decimal.read? text = some x := by
  cases h with
  | @parts sign fixed exponent sign_ fixed_ exponent_ =>
    obtain ⟨negative, split⟩ := splitSign_append sign_ (fixed_.unsigned exponent)
    obtain ⟨x, read⟩ := readMagnitude?_fixed fixed_ exponent_
    rw [List.append_assoc, Decimal.read?, split]
    simp only [read, Option.map_some]
    exact ⟨_, rfl⟩

/-- No blank stands in a number. -/
theorem IsNumeral.solid {text : List Char} (h : IsNumeral text) : ∀ c ∈ text, isBlank c = false := by
  have sign {text : List Char} (h : IsSign text) : ∀ c ∈ text, isBlank c = false := by
    rcases h with rfl | rfl | rfl
    · exact List.forall_mem_nil _
    · exact List.forall_mem_singleton.mpr rfl
    · exact List.forall_mem_singleton.mpr rfl
  have digits {text : List Char} (h : ∀ c ∈ text, c.isDigit = true) :
      ∀ c ∈ text, isBlank c = false :=
    fun c member => not_isBlank_of_isDigit (h c member)
  obtain ⟨sign_, fixed_, exponent_⟩ := h
  refine List.forall_mem_append.mpr ⟨List.forall_mem_append.mpr ⟨sign sign_, ?_⟩, ?_⟩
  · cases fixed_ with
    | whole whole => exact digits whole.all
    | pointed both =>
      obtain ⟨whole, fraction⟩ := List.forall_mem_append.mp both.all
      exact List.forall_mem_append.mpr
        ⟨digits whole, List.forall_mem_cons.mpr ⟨rfl, digits fraction⟩⟩
  · cases exponent_ with
    | none => exact List.forall_mem_nil _
    | power mark sign_ digits_ =>
      refine List.forall_mem_cons.mpr
        ⟨?_, List.forall_mem_append.mpr ⟨sign sign_, digits digits_.all⟩⟩
      rcases mark with rfl | rfl <;> rfl

/-- Without blanks there is nothing to trim. -/
theorem trimBlanks_solid {text : List Char} (solid : ∀ c ∈ text, isBlank c = false) :
    trimBlanks text = text := by
  have kept {cs : List Char} (solid : ∀ c ∈ cs, isBlank c = false) : cs.dropWhile isBlank = cs := by
    rw [List.dropWhile_eq_self_iff]
    intro long
    rw [solid _ (List.getElem_mem long)]
    exact Bool.false_ne_true
  have reversed : ∀ c ∈ text.reverse, isBlank c = false := by simpa using solid
  rw [trimBlanks, kept solid, kept reversed, List.reverse_reverse]

end RigidScene
