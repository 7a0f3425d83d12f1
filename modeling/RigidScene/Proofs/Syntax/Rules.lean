import RigidScene.Proofs.Syntax.Names
import RigidScene.Proofs.Text.Alike

/-!
Readings of the statement notation that are alike.

`Tokens R S` says of two relations between texts that every token of the notation does alike at
related texts: `R` is for texts that stand anywhere, and `S` for those behind layout or behind what
may end an item of a list, since only there a gap is read.  Then every rule of the grammar does so
too, with two parsers for primary expressions that are alike.  A gap may even be read in the second
text alone, if no item begins behind it (`Idle`).  What ends a statement may depend on how the texts
go on, so blocks are alike only where that is alike too (`Delimiters`).
-/

namespace RigidScene.Syntax

open RigidScene.Text
open RigidScene.Text.Parser (Alike Below Only bind_apply bind_refused map_refused orElse_apply
  seqRight_refused seqLeft_refused)

namespace Statements

/-! ## Classes of characters -/

/-- The characters that may begin or end a string, a comment, layout, a statement or a block. -/
def specials : List Char :=
  ['"', '/', ';', '{', '}', ' ', '\t', '\r', '\n']

/-- The class has no special characters. -/
def Inner (accepts : Char → Bool) : Prop :=
  ∀ c ∈ specials, accepts c = false

theorem inner_of {accepts : Char → Bool} (none : specials.all (fun c => !accepts c) = true) :
    Inner accepts := by
  simpa [Inner] using none

theorem inner_char {c : Char} (inner : specials.contains c = false) : Inner (· = c) := by
  intro d special
  refine decide_eq_false ?_
  rintro rfl
  rw [List.contains_iff_mem.mpr special] at inner
  cases inner

theorem Inner.plain {accepts : Char → Bool} (inner : Inner accepts) : Plain accepts :=
  plain_of (inner _ (by decide)) (inner _ (by decide)) (inner _ (by decide)) (inner _ (by decide))

/-- A special character is in no such class. -/
theorem Inner.refuses {accepts : Char → Bool} (inner : Inner accepts) {c : Char}
    (special : specials.contains c = true) : accepts c = false :=
  inner c (List.contains_iff_mem.mp special)

theorem inner_startsName : Inner startsName :=
  inner_of rfl

theorem inner_continuesName : Inner continuesName :=
  inner_of rfl

theorem inner_isDigit : Inner Char.isDigit :=
  inner_of rfl

/-- A character that may end an item: an attribute, an argument or the name of a shape. -/
def endsItem (c : Char) : Bool :=
  continuesName c || ['.', '"', ')', ']', '}'].contains c

/-- A character that begins an item which is no number. -/
def opensItem (c : Char) : Bool :=
  startsName c || ['"', '[', '(', '{', '|', '#'].contains c

/-- No item begins here.  One character tells of every item but a number, for a sign or a point may
also begin an operator or an edge. -/
structure Idle (s : List Char) : Prop where
  opens : ∀ c ∈ s.head?, opensItem c = false
  numberless : beginsNumber s = false

theorem idle_nil : Idle [] :=
  ⟨nofun, rfl⟩

theorem endsItem_of_continuesName {c : Char} (continues : continuesName c = true) :
    endsItem c = true := by
  rw [endsItem, continues, Bool.true_or]

theorem endsItem_of_isDigit {c : Char} (digit : c.isDigit = true) : endsItem c = true := by
  refine endsItem_of_continuesName ?_
  have small : c.toNat < 0x80 := Nat.lt_of_le_of_lt (digit_bounds digit).2 (by decide)
  rw [continuesName, isAlphanumeric, if_pos small, Char.isAlphanum, digit, Bool.or_true,
    Bool.true_or]

section Idle

variable {s : List Char} (idle : Idle s)

include idle

theorem Idle.char {c : Char} (starts : opensItem c = true) : Parser.char c s = .fail := by
  refine Parser.char_other fun d first => ?_
  rintro rfl
  rw [idle.opens d first] at starts
  cases starts

theorem Idle.not_startsName : ∀ c ∈ s.head?, startsName c = false := by
  intro c first
  have other := idle.opens c first
  rw [opensItem, Bool.or_eq_false_iff] at other
  exact other.1

theorem Idle.identifier : identifier s = .fail := by
  rw [Statements.identifier, seq_eq_bind_map]
  exact bind_refused (map_refused (Parser.satisfy_other idle.not_startsName))

theorem Idle.symbol : symbol s = .fail :=
  map_refused idle.identifier

theorem Idle.string : string s = .fail :=
  bind_refused (idle.char rfl)

theorem Idle.attributeItem (p : Parser Tree) : attributeItem p s = .fail := by
  have keyValue : keyValue p s = .fail := bind_refused (seqLeft_refused idle.symbol)
  rw [Statements.attributeItem, orElse_apply, keyValue]
  exact bind_refused (seqRight_refused (idle.char rfl))

theorem Idle.body (p : Parser Tree) : body p s = .fail := by
  have keyword : Parser.text "body".toList s = .fail := by
    show Parser.text ['b', 'o', 'd', 'y'] s = .fail
    rw [Parser.text_cons]
    exact seqRight_refused (idle.char rfl)
  refine bind_refused ?_
  rw [orElse_apply, seqRight_refused (seqRight_refused keyword)]
  exact bind_refused idle.identifier

/-- No primary expression begins where no item does. -/
theorem Idle.primaryStep (p : Parser Tree) : primaryStep p s = .fail := by
  have opening {c : Char} (starts : opensItem c = true) : Parser.char c s = .fail :=
    idle.char starts
  have keyword : Parser.text ['f', 'n'] s = .fail := by
    rw [Parser.text_cons]
    exact seqRight_refused (opening rfl)
  have each : ∀ rule ∈ [number, Syntax.string, vector p, parenthesized p, scope p, function p,
      lambda p, call p, Statements.symbol], rule s = .fail := by
    simp only [List.forall_mem_cons, List.not_mem_nil, false_imp_iff, implies_true, and_true]
    refine ⟨map_refused (numeral_other idle.numberless), idle.string, ?_, ?_, ?_, ?_, ?_, ?_,
      idle.symbol⟩
    · exact bind_refused (seqRight_refused (seqRight_refused (opening rfl)))
    · exact seqLeft_refused (seqLeft_refused (seqRight_refused (seqRight_refused (opening rfl))))
    · exact bind_refused (seqLeft_refused (seqLeft_refused (seqRight_refused (opening rfl))))
    · exact bind_refused (seqLeft_refused (seqRight_refused (seqRight_refused (seqRight_refused
        keyword))))
    · exact bind_refused (seqLeft_refused (seqRight_refused (opening rfl)))
    · exact bind_refused (seqLeft_refused (seqLeft_refused idle.symbol))
  exact oneOf_refused [] each

theorem Idle.primary : primary s = .fail :=
  (Parser.knot_eq Statements.primaryStep s).trans (idle.primaryStep _)

end Idle

/-- The parser reads nothing where no item begins. -/
def Waits (p : Parser Tree) : Prop :=
  ∀ s, Idle s → p s = .fail

theorem Waits.nil {p : Parser Tree} (waits : Waits p) : p [] = .fail :=
  waits [] idle_nil

/-- No statement begins where no item does. -/
theorem Waits.statement {p : Parser Tree} (waits : Waits p) : Waits (statement p) := by
  intro s idle
  have application : application p s = .fail := by
    rw [Statements.application, orElse_apply, idle.body p, waits s idle]
  have label : label p s = .fail := bind_refused (seqLeft_refused idle.symbol)
  rw [Statements.statement, orElse_apply, label]
  exact bind_refused (bind_refused (bind_refused application))

theorem Waits.orElse {p q : Parser Tree} (first : Waits p) (second : Waits q) :
    Waits (Parser.orElse p q) := by
  intro s idle
  rw [orElse_apply, first s idle, second s idle]

theorem waits_symbol : Waits symbol :=
  fun _ => Idle.symbol

theorem waits_string : Waits Syntax.string :=
  fun _ => Idle.string

theorem waits_attributeItem (p : Parser Tree) : Waits (attributeItem p) :=
  fun _ idle => idle.attributeItem p

/-! ## Tokens -/

/-- Every token does alike at related texts. -/
structure Tokens (R S : List Char → List Char → Prop) : Prop where
  anywhere : ∀ s s', S s s' → R s s'
  satisfy : ∀ {accepts}, Inner accepts →
    Alike R R 1 (Parser.satisfy accepts) (Parser.satisfy accepts)
  ending : ∀ {accepts}, Inner accepts → (∀ c, accepts c = true → endsItem c = true) →
    Alike R S 1 (Parser.satisfy accepts) (Parser.satisfy accepts)
  string : Alike R S 1 Syntax.string Syntax.string
  space : Alike R S 0 Statements.space Statements.space
  multiplicative : Alike R S 1 (spaced multiplicativeOperator) (spaced multiplicativeOperator)
  gap : ∀ s s', S s s' → (Statements.gap s).Matches S s s' 1 (Statements.gap s') ∨
    Statements.gap s = .fail ∧ ∃ rest', Statements.gap s' = .ok () rest' ∧ Idle rest'

namespace Tokens

variable {R S : List Char → List Char → Prop} (tokens : Tokens R S)

section

include tokens

theorem below (n n' : Nat) : Tokens (Below R n n') (Below S n n') where
  anywhere s s' related := ⟨tokens.anywhere s s' related.1, related.2⟩
  satisfy inner := (tokens.satisfy inner).below n n'
  ending inner ends := (tokens.ending inner ends).below n n'
  string := tokens.string.below n n'
  space := tokens.space.below n n'
  multiplicative := tokens.multiplicative.below n n'
  gap s s' related := (tokens.gap s s' related.1).imp_left fun same =>
    same.mono fun _ _ left read read' =>
      have ⟨_, short, short'⟩ := related
      ⟨⟨left, by omega, by omega⟩, read, read'⟩

variable {α : Type} {n : Nat} {T : List Char → List Char → Prop} {p q : Parser α}

/-- What is alike anywhere is alike behind an item. -/
theorem behind (alike : Alike R T n p q) : Alike S T n p q :=
  alike.mono (Nat.le_refl n) tokens.anywhere fun _ _ => id

/-- What is left in a special place stands anywhere. -/
theorem loosely (alike : Alike T S n p q) : Alike T R n p q :=
  alike.mono (Nat.le_refl n) (fun _ _ => id) tokens.anywhere

theorem char {c : Char} (inner : specials.contains c = false) :
    Alike R R 1 (Parser.char c) (Parser.char c) :=
  tokens.satisfy (inner_char inner)

/-- A character that may end an item. -/
theorem last {c : Char} (inner : specials.contains c = false) (ends : endsItem c = true) :
    Alike R S 1 (Parser.char c) (Parser.char c) :=
  tokens.ending (inner_char inner) fun d same => by rwa [of_decide_eq_true same]

theorem text (cs : List Char) (inner : cs.all (fun c => !specials.contains c) = true) :
    Alike R R cs.length (Parser.text cs) (Parser.text cs) := by
  induction cs with
  | nil => exact .pure ()
  | cons c cs ih =>
    rw [List.all_cons, Bool.and_eq_true, Bool.not_eq_true'] at inner
    obtain ⟨first, others⟩ := inner
    rw [Parser.text_cons, List.length_cons, Nat.add_comm]
    exact (tokens.char first).bind_add fun _ => ih others

/-- Further characters of an item. -/
theorem takeWhile {accepts : Char → Bool} (inner : Inner accepts)
    (ends : ∀ c, accepts c = true → endsItem c = true) :
    Alike S S 0 (Parser.takeWhile accepts) (Parser.takeWhile accepts) :=
  (tokens.behind (tokens.ending inner ends)).takeWhile

/-- A word that may end an item. -/
theorem word (cs : List Char) (inner : cs.all (fun c => !specials.contains c) = true)
    (ends : cs.all endsItem = true) : Alike S S cs.length (Parser.text cs) (Parser.text cs) := by
  induction cs with
  | nil => exact .pure ()
  | cons c cs ih =>
    rw [List.all_cons, Bool.and_eq_true] at inner ends
    have first := tokens.last (c := c) (by simpa using inner.1) ends.1
    rw [Parser.text_cons, List.length_cons, Nat.add_comm]
    exact (tokens.behind first).bind_add fun _ => ih inner.2 ends.2

/-- A gap, together with something that waits for an item. -/
theorem gap_then {p q : Parser Tree} (alike : Alike S S 0 p q) (waits : Waits q) :
    Alike S S 1 (Statements.gap *> p) (Statements.gap *> q) := by
  intro s s' related
  obtain same | ⟨failed, rest', read, idle⟩ := tokens.gap s s' related
  · exact Alike.bind_at same fun _ => alike
  · have here : (Statements.gap *> p) s = .fail := seqRight_refused failed
    have there : (Statements.gap *> q) s' = .fail :=
      (Parser.seqRight_read read).trans (waits _ idle)
    rw [here, there]
    exact .fail

theorem spaced (alike : Alike S R n p q) : Alike R S n (spaced p) (spaced q) :=
  (tokens.space.seqRight_last alike).seqLeft tokens.space

theorem identifier : Alike R S 1 identifier identifier :=
  (tokens.ending inner_startsName fun _ starts =>
    endsItem_of_continuesName (continuesName_of_startsName starts)).seq
      (tokens.takeWhile inner_continuesName fun _ => endsItem_of_continuesName) List.cons

theorem symbol : Alike R S 1 symbol symbol :=
  tokens.identifier.map Tree.symbol

theorem shapeName : Alike R S 1 shapeName shapeName := by
  apply tokens.identifier.bind
  intro name
  split
  · exact .pure _
  · exact .failure

/-- A character with layout around it. -/
theorem mark {c : Char} (inner : specials.contains c = false) :
    Alike R S 1 (Statements.spaced (Parser.char c)) (Statements.spaced (Parser.char c)) :=
  tokens.spaced (tokens.behind (tokens.char inner))

theorem comma : Alike R S 1 comma comma :=
  tokens.mark rfl

theorem sign : Alike R R 0 sign sign :=
  (tokens.satisfy (inner_of rfl)).opt.bind fun c => .pure c.toList

theorem digits : Alike R S 1 (Parser.takeWhile1 Char.isDigit) (Parser.takeWhile1 Char.isDigit) :=
  (tokens.ending inner_isDigit fun _ => endsItem_of_isDigit).seq
    (tokens.takeWhile inner_isDigit fun _ => endsItem_of_isDigit) List.cons

theorem point : Alike R S 1 (Parser.char '.') (Parser.char '.') :=
  tokens.last rfl rfl

theorem fixedDigits : Alike R S 1 fixedDigits fixedDigits := by
  apply Alike.orElse
  · apply tokens.digits.bind
    intro whole
    have fraction := (tokens.behind tokens.point).bind fun point =>
      (tokens.takeWhile inner_isDigit fun _ => endsItem_of_isDigit).bind
        fun after => .pure (point :: after)
    exact fraction.opt.bind fun _ => .pure _
  · exact tokens.point.bind fun point =>
      (tokens.behind tokens.digits).loose.bind fun after => .pure (point :: after)

theorem exponentPart : Alike R S 1 exponentPart exponentPart := by
  apply (tokens.satisfy (inner_of rfl)).bind
  intro mark
  apply tokens.sign.bind
  intro sign
  exact tokens.digits.required.loose.bind fun _ => .pure _

theorem number : Alike R S 1 number number := by
  have numeral : Alike R S 1 numeral numeral := by
    apply tokens.sign.bind_last
    intro sign
    apply tokens.fixedDigits.bind
    intro digits
    exact (tokens.behind tokens.exponentPart).opt.bind fun _ => .pure _
  exact numeral.map Tree.number

theorem edge : Alike R R 0 edge edge := by
  have mark {cs : List Char} (inner : cs.all (fun c => !specials.contains c) = true)
      (kind : EdgeKind) : Alike R R 0 (Parser.text cs *> pure kind) (Parser.text cs *> pure kind) :=
    (tokens.text cs inner).loose.seqRight (.pure kind)
  exact .oneOf (.cons (mark rfl _) (.cons (mark rfl _) (.cons (mark rfl _)
    (.cons (mark rfl _) .nil))))

theorem additive : Alike R R 1 additiveOperator additiveOperator :=
  (tokens.char rfl).orElse
    ((tokens.char rfl).seqLeft (tokens.satisfy (inner_of rfl)).notAhead)

theorem parameters : Alike R S 0 parameters parameters :=
  have names := Alike.sepBy (tokens.behind tokens.symbol) (tokens.behind tokens.comma)
  ((tokens.space.seqRight names).seqLeft (tokens.behind tokens.space)).map _

end

/-! ## Rules that contain expressions -/

section Rules

variable {p q : Parser Tree} (alike : Alike R S 1 p q) (waits : Waits q)

include tokens alike

/-- Operands with operators between them, if the operators are alike with layout around them. -/
theorem infixChain {operator : Parser Char}
    (spaced : Alike R S 1 (Statements.spaced operator) (Statements.spaced operator)) :
    Alike R S 1 (infixChain operator p) (infixChain operator q) := by
  apply alike.bind
  intro first
  have step := (tokens.behind spaced).seq (tokens.behind alike).loose Prod.mk
  exact (Alike.many step).bind fun steps => .pure (steps.foldl operation first)

theorem keyValue : Alike R S 1 (keyValue p) (keyValue q) := by
  apply (tokens.symbol.seqLeft (tokens.behind (tokens.mark rfl)).loose).bind
  intro key
  exact (tokens.behind alike).loose.bind fun value => .pure _

theorem attributeItem : Alike R S 1 (attributeItem p) (attributeItem q) := by
  apply (tokens.keyValue alike).orElse
  exact ((tokens.char rfl).seqRight tokens.symbol.loose).bind fun key => .pure _

theorem attributes : Alike S S 0 (attributes p) (attributes q) :=
  .many (tokens.gap_then (tokens.behind (tokens.attributeItem alike)).loose (waits_attributeItem q))

include waits

theorem body : Alike R S 1 (body p) (body q) := by
  have keyword : Alike R S 4 (Parser.text "body".toList) (Parser.text "body".toList) := by
    have others := tokens.word ['o', 'd', 'y'] rfl rfl
    have whole := (tokens.last (c := 'b') rfl rfl).bind_add fun _ => others
    rwa [← seqRight_eq_bind, ← Parser.text_cons] at whole
  have named : Alike R S 1
      (Parser.text "body".toList *> Statements.gap *> Parser.orElse Statements.symbol Syntax.string)
      (Parser.text "body".toList *> Statements.gap *>
        Parser.orElse Statements.symbol Syntax.string) := by
    have name := tokens.gap_then (tokens.behind (tokens.symbol.orElse tokens.string)).loose
      (waits_symbol.orElse waits_string)
    have both := keyword.loose.seqRight_last name
    simpa only [seqRight_eq_bind, bind_assoc] using both
  have item := tokens.behind ((tokens.attributeItem alike).orElse alike)
  have items := Alike.many (tokens.gap_then item.loose ((waits_attributeItem q).orElse waits))
  exact (named.orElse tokens.shapeName).bind fun shape => items.bind fun items => .pure _

theorem expression : Alike R S 1 (expression p) (expression q) :=
  tokens.infixChain (tokens.infixChain ((tokens.body alike waits).orElse alike)
    tokens.multiplicative) (tokens.spaced (tokens.behind tokens.additive))

theorem clause : Alike R S 1 (clause p) (clause q) := by
  apply (tokens.expression alike waits).bind
  intro source
  have edge := tokens.spaced (tokens.behind tokens.edge)
  have tail := (tokens.behind edge).bind fun kind =>
    (tokens.behind (tokens.expression alike waits)).loose.bind fun target =>
      (tokens.attributes alike).bind fun items => .pure (kind, target, items)
  apply tail.opt.bind
  intro found
  cases found with
  | none => exact .pure source
  | some tail => exact .pure _

theorem statement : Alike R S 1 (statement p) (statement q) := by
  apply Alike.orElse
  · apply (tokens.symbol.seqLeft (tokens.behind (tokens.mark rfl)).loose).bind
    intro name
    exact (tokens.behind (tokens.clause alike waits)).loose.bind fun value => .pure _
  · exact tokens.clause alike waits

end Rules

end Tokens

/-! ## Statements -/

/-- A statement with the layout before it and with what ends it. -/
def item (p : Parser Tree) : Parser Tree :=
  space *> statement p <* terminator

/-- What stands between statements and at their end does alike at related texts; behind a closing
brace the texts may be related otherwise. -/
structure Delimiters (R T : List Char → List Char → Prop) : Prop where
  semicolon : Alike R R 1 (Parser.char ';') (Parser.char ';')
  brace : Alike R T 1 (Parser.char '}') (Parser.char '}')
  atEnd : Alike R R 0 Parser.atEnd Parser.atEnd

namespace Delimiters

variable {R S T U : List Char → List Char → Prop} (delimiters : Delimiters R T)
  (tokens : Tokens R S)

include delimiters

theorem below (n n' : Nat) : Delimiters (Below R n n') (Below T n n') where
  semicolon := delimiters.semicolon.below n n'
  brace := delimiters.brace.below n n'
  atEnd := delimiters.atEnd.below n n'

include tokens

theorem semicolons : Alike R R 0 semicolons semicolons :=
  (Alike.many ((tokens.loosely tokens.space).seqRight_last delimiters.semicolon)).map fun _ => ()

theorem terminator : Alike R R 0 terminator terminator :=
  (tokens.loosely tokens.space).seqRight
    (.oneOf (.cons (delimiters.semicolon.loose.seqRight (delimiters.semicolons tokens))
      (.cons delimiters.brace.ahead (.cons delimiters.atEnd .nil))))

variable {p q : Parser Tree} (alike : Alike R S 1 p q) (waits : Waits q)

include alike waits

theorem item : Alike R R 1 (item p) (item q) :=
  have statement := tokens.loosely (tokens.statement alike waits)
  ((tokens.loosely tokens.space).seqRight_last statement).seqLeft (delimiters.terminator tokens)

theorem items : Alike R R 0 (Parser.many (Statements.item p)) (Parser.many (Statements.item q)) :=
  .many (delimiters.item tokens alike waits)

theorem statements : Alike R R 0 (statements p) (statements q) :=
  (delimiters.semicolons tokens).seqRight (delimiters.items tokens alike waits)

/-- Blocks are alike where their braces are. -/
theorem block (opening : Alike U R 1 (Parser.char '{') (Parser.char '{')) :
    Alike U T 1 (block p) (block q) :=
  ((opening.seqRight (delimiters.statements tokens alike waits)).seqLeft
    (tokens.loosely tokens.space)).seqLeft delimiters.brace.loose

end Delimiters

/-! ## Primary expressions -/

/-- Tokens that a primary expression begins with do alike at texts related by `U`, from which they
lead to texts where all tokens do so. -/
structure Enters (U R S : List Char → List Char → Prop) : Prop where
  satisfy : ∀ {accepts}, Inner accepts →
    Alike U R 1 (Parser.satisfy accepts) (Parser.satisfy accepts)
  text : ∀ cs, cs ≠ [] → cs.all (fun c => !specials.contains c) = true →
    Alike U R 1 (Parser.text cs) (Parser.text cs)
  number : Alike U S 1 Syntax.number Syntax.number
  string : Alike U S 1 Syntax.string Syntax.string
  symbol : Alike U S 1 Statements.symbol Statements.symbol

/-- Behind the first token both texts are shorter. -/
theorem Tokens.enters {R S : List Char → List Char → Prop} (tokens : Tokens R S) {s s' : List Char}
    (related : R s s') : Enters (Only s s') (Below R s.length s'.length)
      (Below S s.length s'.length) where
  satisfy inner := (tokens.satisfy inner).enter related
  text word some inner := by
    have word := tokens.text word inner
    rw [← Nat.succ_pred (List.length_pos_iff.mpr some).ne'] at word
    exact (word.enter related).mono (Nat.succ_pos _) (fun _ _ => id) fun _ _ => id
  number := tokens.number.enter related
  string := tokens.string.enter related
  symbol := tokens.symbol.enter related

namespace Enters

variable {U R S : List Char → List Char → Prop} (enters : Enters U R S) (tokens : Tokens R S)

theorem char (enters : Enters U R S) {c : Char} (inner : specials.contains c = false) :
    Alike U R 1 (Parser.char c) (Parser.char c) :=
  enters.satisfy (inner_char inner)

variable {p q : Parser Tree} (alike : Alike R S 1 p q) (waits : Waits q)

include enters tokens alike waits

theorem vector : Alike U S 1 (vector p) (vector q) := by
  have coordinate := (tokens.behind (tokens.expression alike waits)).loose
  apply (((enters.char rfl).seqRight tokens.space).seqRight coordinate).bind
  intro x
  have second := (((tokens.behind tokens.comma).seqRight coordinate).seqLeft
    (tokens.behind tokens.space)).seqLeft (tokens.behind (tokens.last (c := ']') rfl rfl)).loose
  exact second.loose.bind fun y => .pure _

theorem parenthesized : Alike U S 1 (parenthesized p) (parenthesized q) :=
  ((((enters.char rfl).seqRight tokens.space).seqRight
    (tokens.behind (tokens.clause alike waits)).loose).seqLeft
      (tokens.behind tokens.space)).seqLeft (tokens.behind (tokens.last rfl rfl)).loose

theorem lambda : Alike U S 1 (lambda p) (lambda q) := by
  have bar := tokens.behind (tokens.char (c := '|') rfl)
  apply (((enters.char (c := '|') rfl).seqRight tokens.parameters).seqLeft bar.loose).bind
  intro params
  have result := tokens.space.seqRight (tokens.behind (tokens.clause alike waits)).loose
  exact result.bind fun result => .pure _

theorem call : Alike U S 1 (call p) (call q) := by
  have opening := (tokens.behind (tokens.char (c := '(') rfl)).loose
  apply ((enters.symbol.seqLeft opening).seqLeft tokens.space).bind
  intro callee
  have args := Alike.sepBy (tokens.behind (tokens.clause alike waits)) (tokens.behind tokens.comma)
  exact ((args.seqLeft (tokens.behind tokens.space)).seqLeft
    (tokens.behind (tokens.last rfl rfl)).loose).bind fun args => .pure _

/-- Primary expressions are alike if those inside them are, and blocks. -/
theorem primaryStep (block : Alike U S 1 (block p) (block q))
    (inside : Alike R S 1 (Statements.block p) (Statements.block q)) :
    Alike U S 1 (primaryStep p) (primaryStep q) := by
  have scope : Alike U S 1 (scope p) (scope q) := by
    apply block.bind
    intro statements
    exact (tokens.attributes alike).bind fun items => .pure _
  have function : Alike U S 1 (function p) (function q) := by
    have keyword := (enters.text ['f', 'n'] (by decide) rfl).seqRight tokens.space
    have opened := (keyword.seqRight (tokens.behind (tokens.char (c := '(') rfl)).loose).seqRight
      tokens.parameters
    apply (opened.seqLeft (tokens.behind (tokens.char rfl)).loose).bind
    intro params
    exact (tokens.space.seqRight (tokens.behind inside).loose).bind fun statements => .pure _
  exact .oneOf (.cons enters.number (.cons enters.string
    (.cons (enters.vector tokens alike waits) (.cons (enters.parenthesized tokens alike waits)
      (.cons scope (.cons function (.cons (enters.lambda tokens alike waits)
        (.cons (enters.call tokens alike waits) (.cons enters.symbol .nil)))))))))

end Enters

end Statements

end RigidScene.Syntax
