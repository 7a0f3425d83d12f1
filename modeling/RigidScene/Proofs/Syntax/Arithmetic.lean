import RigidScene.Proofs.Syntax.Operators

/-!
Expressions of names, numbers and operators.

`Arithmetic.written` spells an expression with a blank on each side of every operator, and with
parentheses only where the operator outside is stronger, or as strong and on the left.  What is read
from that text is the expression itself (`Arithmetic.read_written`).  The grammar has two chains,
sums of products of operands, so an expression is read in three ways, depending on where it stands;
the induction carries all three.  A chain is built from the left while it is read, which is why
`Chains` speaks of an expression in front of further steps.
-/

namespace RigidScene.Syntax

open RigidScene.Text
open RigidScene.Text.Parser (bind_read bind_refused knot_eq many_read map_read map_refused
  orElse_apply seqLeft_read seqLeft_refused seqRight_read seqRight_refused)

namespace Statements

/-! ## Expressions and their spelling -/

/-- An expression of variables, numbers and operators. -/
inductive Arithmetic where
  | name (word : List Char) (variable_ : IsVariable word)
  | numeral (word : List Char) (numeral_ : IsNumeral word)
  | operation (left : Arithmetic) (op : Char) (is_operator : op ∈ operators) (right : Arithmetic)

/-- How strongly an operator binds. -/
def strength (op : Char) : Nat :=
  if op = '*' ∨ op = '/' then 1 else 0

theorem strength_lt (op : Char) : strength op < 2 := by
  rw [strength]
  split <;> decide

/-- The text in parentheses. -/
def enclosed (text : List Char) : List Char :=
  '(' :: text ++ [')']

namespace Arithmetic

/-- How strongly the parts of the expression are bound; names and numbers have no parts. -/
def rank : Arithmetic → Nat
  | name _ _ => 2
  | numeral _ _ => 2
  | operation _ op _ _ => strength op

/-- The text of the expression.  Operators of one strength group from the left, so an operand on the
right needs parentheses even if it is as strong as the operator. -/
def written : Arithmetic → List Char
  | name word _ => word
  | numeral word _ => word
  | operation left op _ right =>
    (if left.rank < strength op then enclosed left.written else left.written) ++ ' ' :: op :: ' ' ::
      (if right.rank ≤ strength op then enclosed right.written else right.written)

/-- The expression as nested calls. -/
def tree : Arithmetic → Tree
  | name word _ => Tree.symbol word
  | numeral word _ => Tree.number word
  | operation left op _ right => Tree.branch "call" [Tree.symbol [op], left.tree, right.tree]

/-- The text of the expression where an expression of at least this rank has to stand. -/
def atLeast (n : Nat) (e : Arithmetic) : List Char :=
  if e.rank < n then enclosed e.written else e.written

variable {n : Nat} {e : Arithmetic}

theorem atLeast_of_le (strong : n ≤ e.rank) : e.atLeast n = e.written :=
  if_neg (Nat.not_lt.mpr strong)

theorem atLeast_of_lt (weak : e.rank < n) : e.atLeast n = enclosed e.written :=
  if_pos weak

theorem written_operation (left : Arithmetic) {op : Char} (is_operator : op ∈ operators)
    (right : Arithmetic) : (operation left op is_operator right).written =
      left.atLeast (strength op) ++ ' ' :: op :: ' ' :: right.atLeast (strength op + 1) := by
  rw [written, atLeast, atLeast]
  simp only [Nat.lt_succ_iff]

example (x : IsVariable ['x']) (y : IsVariable ['y']) :
    (operation (.name _ x) '-' (by decide)
      (.operation (.name _ x) '-' (by decide) (.name _ y))).written = "x - (x - y)".toList :=
  rfl

end Arithmetic

/-! ## What stands behind an operand -/

/-- Behind an expression of rank `n` the text is over, a parenthesis is closed, or a weaker operator
follows. -/
inductive Follows (n : Nat) : List Char → Prop where
  | nothing : Follows n []
  | closing (s : List Char) : Follows n (')' :: s)
  | operator {op : Char} (is_operator : op ∈ operators) (weak : strength op < n) (s : List Char) :
    Follows n (' ' :: op :: ' ' :: s)

variable {n k : Nat} {s rest : List Char} {op c : Char}

theorem skip_closing (s : List Char) : skip false (')' :: s) = ')' :: s :=
  skip_stop rfl (by rintro _ ⟨⟩)

/-- Behind a blank an operator begins no comment, for a blank follows it. -/
theorem skip_operator (is_operator : op ∈ operators) (s : List Char) :
    skip false (' ' :: op :: ' ' :: s) = op :: ' ' :: s := by
  rw [skip_blank rfl]
  exact skip_stop (of_operators is_operator (P := (isSpace · = false)) rfl)
    (by rintro _ _ ⟨⟩)

namespace Follows

theorem mono {m : Nat} (follows : Follows n rest) (less : n ≤ m) : Follows m rest := by
  cases follows with
  | nothing => exact .nothing
  | closing s => exact .closing s
  | operator is_operator weak s => exact .operator is_operator (Nat.lt_of_lt_of_le weak less) s

/-- Behind the layout there is nothing, a parenthesis or an operator. -/
theorem skip_head (follows : Follows n rest) :
    ∀ c ∈ (skip false rest).head?, c = ')' ∨ c ∈ operators := by
  cases follows with
  | nothing => nofun
  | closing s =>
    rw [skip_closing]
    rintro _ ⟨⟩
    exact .inl rfl
  | operator is_operator _ s =>
    rw [skip_operator is_operator]
    rintro _ ⟨⟩
    exact .inr is_operator

/-- A property of parentheses and operators holds of what stands behind the layout. -/
theorem skip_of (follows : Follows n rest) {P : Char → Prop} [DecidablePred P]
    (each : (')' :: operators).all (P ·) = true) : ∀ c ∈ (skip false rest).head?, P c := by
  intro c first
  rw [List.all_cons, Bool.and_eq_true] at each
  obtain rfl | is_operator := follows.skip_head c first
  · exact of_decide_eq_true each.1
  · exact of_operators is_operator each.2

/-- A number has ended here. -/
theorem ends (follows : Follows n rest) : Ends rest := by
  cases follows with
  | nothing => nofun
  | closing s =>
    rintro _ ⟨⟩
    rfl
  | operator _ _ s =>
    rintro _ ⟨⟩
    rfl

/-- A name has ended here, and is no call, function or body. -/
theorem apart (follows : Follows n rest) : Apart rest where
  ends := by
    cases follows with
    | nothing => nofun
    | closing s =>
      rintro _ ⟨⟩
      rfl
    | operator _ _ s =>
      rintro _ ⟨⟩
      rfl
  next := follows.skip_of (P := fun c => c ≠ '(' ∧ c ≠ '"' ∧ startsName c = false) rfl

end Follows

/-! ## Chains -/

/-- The operators of a chain: sums are weaker than products. -/
def operatorAt : Nat → Parser Char
  | 0 => additiveOperator
  | _ + 1 => multiplicativeOperator

/-- The parser for expressions of at least a given rank. -/
def readerAt : Nat → Parser Tree
  | 0 => expression primary
  | 1 => term primary
  | _ + 2 => application primary

theorem readerAt_eq (chain : k < 2) :
    readerAt k = infixChain (operatorAt k) (readerAt (k + 1)) := by
  obtain rfl | rfl : k = 0 ∨ k = 1 := by omega
  · rfl
  · rfl

theorem operatorAt_strength (is_operator : op ∈ operators) (s : List Char) :
    operatorAt (strength op) (op :: ' ' :: s) = .ok op (' ' :: s) := by
  obtain rfl | rfl | rfl | rfl := operators_cases is_operator
  · rfl
  · rfl
  · rfl
  · rfl

/-- A weaker operator does not belong to the chain. -/
theorem operatorAt_weak (chain : k < 2) (is_operator : op ∈ operators) (weak : strength op < k)
    (s : List Char) : operatorAt k (op :: ' ' :: s) = .fail := by
  obtain rfl | rfl : k = 0 ∨ k = 1 := by omega
  · exact absurd weak (Nat.not_lt_zero _)
  · obtain rfl | rfl | rfl | rfl := operators_cases is_operator
    · rfl
    · rfl
    · exact absurd weak (by decide)
    · exact absurd weak (by decide)

theorem Follows.operatorAt (follows : Follows k rest) (chain : k < 2) :
    Statements.operatorAt k (skip false rest) = .fail := by
  cases follows with
  | nothing => cases k <;> rfl
  | closing s =>
    rw [skip_closing]
    cases k <;> rfl
  | operator is_operator weak s =>
    rw [skip_operator is_operator, operatorAt_weak chain is_operator weak]

/-- The text is read as the tree by the parser for its rank, and ends where it ends. -/
def ReadAt (n : Nat) (text : List Char) (t : Tree) : Prop :=
  ∀ rest, Follows n rest → readerAt n (text ++ rest) = .ok t rest

/-- In front of further steps of the chain, the text is read as the tree that they go on from. -/
def Chains (k : Nat) (text : List Char) (t : Tree) : Prop :=
  ∀ rest steps last, Follows (k + 1) rest →
    Parser.many (Prod.mk <$> spaced (operatorAt k) <*> readerAt (k + 1)) rest = .ok steps last →
      infixChain (operatorAt k) (readerAt (k + 1)) (text ++ rest) =
        .ok (steps.foldl operation t) last

variable {text text' : List Char} {t u : Tree}

theorem ReadAt.chains (read : ReadAt (k + 1) text t) : Chains k text t :=
  fun rest _ _ follows steps => (bind_read (read rest follows)).trans (bind_read steps)

theorem Chains.readAt (chains : Chains k text t) (chain : k < 2) : ReadAt k text t := by
  intro rest follows
  rw [readerAt_eq chain]
  exact chains rest [] rest (follows.mono (Nat.le_succ k)) (steps_end (follows.operatorAt chain))

/-- One more operand on the right. -/
theorem Chains.append (chains : Chains (strength op) text t) (is_operator : op ∈ operators)
    (read : ReadAt (strength op + 1) text' u)
    (solid : ∀ rest, Follows (strength op + 1) rest → skip false (text' ++ rest) = text' ++ rest) :
    Chains (strength op) (text ++ ' ' :: op :: ' ' :: text') (operation t (op, u)) := by
  intro rest steps last follows others
  have follows' : Follows (strength op + 1) (' ' :: op :: ' ' :: (text' ++ rest)) :=
    .operator is_operator (Nat.lt_succ_self _) _
  have step : (Prod.mk <$> spaced (operatorAt (strength op)) <*> readerAt (strength op + 1))
      (' ' :: op :: ' ' :: (text' ++ rest)) = .ok (op, u) rest := by
    have sign : spaced (operatorAt (strength op)) (' ' :: op :: ' ' :: (text' ++ rest)) =
        .ok op (text' ++ rest) := by
      rw [spaced_read (by rw [skip_operator is_operator, operatorAt_strength is_operator]),
        skip_blank rfl, solid rest follows]
    rw [seq_eq_bind_map]
    exact (bind_read (map_read sign)).trans (map_read (read rest follows))
  have shorter : rest.length < (' ' :: op :: ' ' :: (text' ++ rest)).length := by
    simp only [List.length_cons, List.length_append]
    omega
  have whole := chains _ _ _ follows' (many_read step shorter others)
  rwa [← List.cons_append, ← List.cons_append, ← List.cons_append, ← List.append_assoc] at whole

/-! ## First characters -/

/-- A character that may begin an item. -/
def startsItem (c : Char) : Bool :=
  opensItem c || startsNumeral c

/-- No layout begins where an item does. -/
theorem skip_item (starts : startsItem c = true) (s : List Char) :
    skip false (c :: s) = c :: s := by
  have other {d : Char} (refused : startsItem d = false) : c ≠ d := by
    rintro rfl
    rw [refused] at starts
    cases starts
  refine skip_stop ?_ fun _ same => absurd same (other rfl)
  simp only [isSpace, Bool.or_eq_false_iff, decide_eq_false_iff_not]
  exact ⟨⟨⟨other rfl, other rfl⟩, other rfl⟩, other rfl⟩

theorem identifier_other (other : startsName c = false) (s : List Char) :
    identifier (c :: s) = .fail := by
  rw [identifier, seq_eq_bind_map]
  exact bind_refused (map_refused (Parser.satisfy_other (by rintro _ ⟨⟩; exact other)))

/-- What begins with no name is not labelled. -/
theorem label_other (other : startsName c = false) (p : Parser Tree) (s : List Char) :
    label p (c :: s) = .fail :=
  bind_refused (seqLeft_refused (map_refused (identifier_other other s)))

/-- Nor is it a body. -/
theorem body_other (other : startsName c = false) (p : Parser Tree) (s : List Char) :
    body p (c :: s) = .fail := by
  have keyword : Parser.text "body".toList (c :: s) = .fail := by
    refine if_neg ?_
    rintro rfl
    cases other
  refine bind_refused ?_
  rw [orElse_apply, seqRight_refused (seqRight_refused keyword)]
  exact bind_refused (identifier_other other s)

/-- A number begins with no name. -/
theorem startsName_of_startsNumeral (starts : startsNumeral c = true) : startsName c = false := by
  simp only [startsNumeral, Bool.or_eq_true, List.contains_iff_mem, List.mem_cons,
    List.not_mem_nil, or_false] at starts
  by_contra name
  have digitless := isDigit_of_startsName (Bool.not_eq_false _ ▸ name)
  rcases starts with digit | rfl | rfl | rfl
  · rw [digit] at digitless
    cases digitless
  · exact name rfl
  · exact name rfl
  · exact name rfl

theorem startsItem_of_startsNumeral (starts : startsNumeral c = true) : startsItem c = true := by
  rw [startsItem, starts, Bool.or_true]

/-! ## Operands -/

/-- A number is an operand. -/
theorem application_numeral {word : List Char} (numeral_ : IsNumeral word) (ends : Ends rest) :
    application primary (word ++ rest) = .ok (Tree.number word) rest := by
  have read : number (word ++ rest) = .ok (Tree.number word) rest :=
    map_read (numeral_word numeral_ ends)
  obtain ⟨c, s, rfl, starts⟩ := begins_numeral numeral_
  rw [List.cons_append] at read ⊢
  rw [application, orElse_apply, body_other (startsName_of_startsNumeral starts)]
  show primary (c :: (s ++ rest)) = _
  rw [primary, knot_eq]
  show Parser.oneOf (number :: _) (c :: (s ++ rest)) = _
  rw [Parser.oneOf, List.foldr_cons, orElse_apply, read]

/-- What reads a clause reads it with a parser for primary expressions that is one on short texts
only. -/
theorem clause_local {q : Parser Tree} {m : Nat} (agrees : ∀ t, t.length < m → q t = primary t)
    (waits : Waits q) (short : s.length < m) (read : clause primary s = .ok t rest) :
    clause q s = .ok t rest := by
  have alike := ((tokens_same (C := True)).below m m).clause (primary_local agrees) waits
  obtain ⟨_, read', ⟨⟨rfl, _⟩, _⟩, _⟩ := alike.ok ⟨⟨rfl, fun _ => trivial⟩, short, short⟩ read
  exact read'

/-- A clause in parentheses is an operand. -/
theorem application_parenthesized (solid : skip false s = s)
    (read : clause primary s = .ok t (')' :: rest)) :
    application primary ('(' :: s) = .ok t rest := by
  rw [application, orElse_apply, body_other rfl]
  show primary ('(' :: s) = _
  rw [primary, knot_eq]
  generalize same : (fun t => _ : Parser Tree) = q
  have agrees : ∀ t, t.length < ('(' :: s).length → q t = primary t := by
    intro t short
    rw [← same]
    exact if_pos short
  have waits : Waits q := by
    intro t idle
    rw [← same]
    show (if _ then primary t else .fail) = .fail
    rw [idle.primary, ite_self]
  have inner := clause_local agrees waits (Nat.lt_succ_self _) read
  have opened : (Parser.char '(' *> space *> clause q) ('(' :: s) = .ok t (')' :: rest) := by
    have paren : Parser.char '(' ('(' :: s) = .ok '(' s := rfl
    have behind : (Parser.char '(' *> space) ('(' :: s) = .ok () (skip false s) :=
      (seqRight_read paren).trans (space_apply s)
    rw [seqRight_read behind, solid, inner]
  have closed : parenthesized q ('(' :: s) = .ok t rest := by
    have spaced := seqLeft_read opened (space_apply _)
    rw [skip_closing] at spaced
    exact seqLeft_read spaced (b := ')') rfl
  have others : ∀ rule ∈ [number, string, vector q], rule ('(' :: s) = .fail := by
    simp only [List.forall_mem_cons, List.not_mem_nil, false_imp_iff, implies_true, and_true]
    exact ⟨map_refused (numeral_other rfl), bind_refused rfl,
      bind_refused (seqRight_refused (seqRight_refused rfl))⟩
  refine (oneOf_refused (parenthesized q :: _) others).trans ?_
  rw [Parser.oneOf, List.foldr_cons, orElse_apply, closed]

/-! ## Expressions -/

/-- How the text of an expression begins: with a variable, or with what begins no name. -/
inductive Opens : List Char → Prop where
  | name {word rest : List Char} (variable_ : IsVariable word) (follows : Follows 2 rest) :
    Opens (word ++ rest)
  | item {c : Char} (starts : startsItem c = true) (other : startsName c = false) (s : List Char) :
    Opens (c :: s)

/-- No layout stands before an expression. -/
theorem Opens.skip (opens : Opens s) : skip false s = s := by
  cases opens with
  | name variable_ _ => exact skip_name variable_.identifier _
  | item starts _ s => exact skip_item starts s

/-- No label begins there. -/
theorem Opens.label (opens : Opens s) : label primary s = .fail := by
  cases opens with
  | name variable_ follows =>
    have colonless := follows.skip_of (P := (· ≠ ':')) rfl
    exact label_name variable_.identifier follows.apart colonless primary
  | item _ other s => exact label_other other primary s

theorem Opens.semicolonless (opens : Opens s) (t : List Char) : s ≠ ';' :: t := by
  rintro rfl
  generalize same : ';' :: t = s at opens
  cases opens with
  | name variable_ _ =>
    obtain ⟨c, _, begins, starts⟩ := variable_.identifier.head _
    rw [begins] at same
    cases same
    cases starts
  | item starts _ s =>
    cases same
    cases starts

namespace Arithmetic

theorem opens (e : Arithmetic) (n : Nat) (follows : Follows 2 rest) :
    Opens (e.atLeast n ++ rest) := by
  induction e generalizing n rest with
  | name word variable_ =>
    rw [atLeast]
    split
    · exact .item rfl rfl _
    · exact .name variable_ follows
  | numeral word numeral_ =>
    rw [atLeast]
    split
    · exact .item rfl rfl _
    · obtain ⟨c, s, rfl, starts⟩ := begins_numeral numeral_
      exact .item (startsItem_of_startsNumeral starts) (startsName_of_startsNumeral starts) _
  | operation left op is_operator right first _ =>
    rw [atLeast]
    split
    · exact .item rfl rfl _
    · rw [written_operation, List.append_assoc]
      exact first _ (.operator is_operator (strength_lt op) _)

/-- How the expression is read in each place: as an operand, a product and a sum. -/
structure Reads (e : Arithmetic) : Prop where
  operand : ReadAt 2 (e.atLeast 2) e.tree
  product : Chains 1 (e.atLeast 1) e.tree
  sum : Chains 0 (e.atLeast 0) e.tree

/-- A sum, in front of what is no edge, is a clause. -/
theorem clause_written {e : Arithmetic} (sum : Chains 0 e.written e.tree)
    (follows : Follows 0 rest) : clause primary (e.written ++ rest) = .ok e.tree rest := by
  refine clause_single (sum.readAt (by decide) rest follows) ?_
  cases follows with
  | nothing => rfl
  | closing s =>
    rw [skip_closing]
    rfl
  | operator _ weak _ => exact absurd weak (Nat.not_lt_zero _)

/-- In parentheses it is an operand. -/
theorem readAt_enclosed {e : Arithmetic} (sum : Chains 0 e.written e.tree) :
    ReadAt 2 (enclosed e.written) e.tree := by
  intro rest _
  have solid := (e.opens 0 (.closing rest)).skip
  rw [atLeast_of_le (Nat.zero_le _)] at solid
  have inner := clause_written sum (.closing rest)
  have whole := application_parenthesized solid inner
  have text : enclosed e.written ++ rest = '(' :: (e.written ++ ')' :: rest) := by
    rw [enclosed, List.append_assoc]
    rfl
  rw [text]
  exact whole

/-- A name or a number is read in every place alike. -/
theorem reads_leaf {e : Arithmetic} (leaf : e.rank = 2) (read : ReadAt 2 e.written e.tree) :
    e.Reads := by
  have same (n : Nat) (le : n ≤ 2) : e.atLeast n = e.written := atLeast_of_le (leaf ▸ le)
  have product : Chains 1 e.written e.tree := read.chains
  refine ⟨?_, ?_, ?_⟩
  · rwa [same 2 (by decide)]
  · rwa [same 1 (by decide)]
  · rw [same 0 (by decide)]
    exact (product.readAt (by decide)).chains

/-- Every expression is read in every place, if it is written as that place asks for. -/
theorem reads (e : Arithmetic) : e.Reads := by
  induction e with
  | name word variable_ =>
    exact reads_leaf rfl fun _ follows => variable_.application follows.apart
  | numeral word numeral_ =>
    exact reads_leaf rfl fun _ follows => application_numeral numeral_ follows.ends
  | operation left op is_operator right first second =>
    have solid (rest : List Char) (follows : Follows (strength op + 1) rest) :=
      (right.opens (strength op + 1) (follows.mono (strength_lt op))).skip
    generalize same : operation left op is_operator right = e
    have written_ : e.written = left.atLeast (strength op) ++ ' ' :: op :: ' ' ::
        right.atLeast (strength op + 1) := by
      rw [← same, written_operation]
    have rank_ : e.rank = strength op := by
      rw [← same, rank]
    have chain (before : Chains (strength op) (left.atLeast (strength op)) left.tree)
        (operand : ReadAt (strength op + 1) (right.atLeast (strength op + 1)) right.tree) :
        Chains (strength op) e.written e.tree := by
      rw [written_, ← same]
      exact before.append is_operator operand solid
    obtain weak | strong : strength op = 0 ∨ strength op = 1 := by
      have := strength_lt op
      omega
    · rw [weak] at chain rank_
      have sum := chain first.sum (second.product.readAt (by decide))
      have operand := readAt_enclosed sum
      refine ⟨?_, ?_, ?_⟩
      · rwa [atLeast_of_lt (by omega)]
      · rw [atLeast_of_lt (by omega)]
        exact operand.chains
      · rwa [atLeast_of_le (by omega)]
    · rw [strong] at chain rank_
      have product := chain first.product second.operand
      have sum := (product.readAt (by decide)).chains
      refine ⟨?_, ?_, ?_⟩
      · rw [atLeast_of_lt (by omega)]
        exact readAt_enclosed sum
      · rwa [atLeast_of_le (by omega)]
      · rwa [atLeast_of_le (by omega)]

/-- **Round trip.**  The text of an expression is read as one statement, the expression. -/
theorem read_written (e : Arithmetic) :
    SourceForm.statements.read e.written = .ok (Tree.branch "composite" [e.tree]) := by
  have opens := e.opens 0 .nothing
  have sum := e.reads.sum
  rw [atLeast_of_le (Nat.zero_le _)] at sum opens
  have clause := clause_written sum .nothing
  rw [List.append_nil] at opens clause
  refine read_single opens.skip opens.semicolonless ?_
  rw [statement, orElse_apply, opens.label]
  exact clause

end Arithmetic

end Statements

end RigidScene.Syntax
