import RigidScene.Proofs.Syntax.Concatenation
import RigidScene.Proofs.Syntax.Names

/-!
An operator between two names.

An operator is read behind layout, and a minus only where neither another minus nor an `o` is right
behind it: that is all the rule for a minus sees of an edge.  So a minus is refused before every
name that begins with `o`, although no edge begins there; then the source stops being read in front
of the minus, since an edge is not read there either.
-/

namespace RigidScene.Syntax

open RigidScene.Text
open RigidScene.Text.Parser (bind_read bind_refused many_read many_stop map_read
  map_refused opt_apply orElse_apply seqLeft_read seqLeft_refused seqRight_read seqRight_refused)

namespace Statements

variable {s rest mid last : List Char} {c : Char}

/-! ## Tokens between layout -/

/-- Blanks are skipped. -/
theorem skip_blanks {blanks : List Char} (blank : ∀ c ∈ blanks, isSpace c = true)
    (s : List Char) : skip false (blanks ++ s) = skip false s := by
  induction blanks with
  | nil => rfl
  | cons c blanks ih =>
    obtain ⟨first, others⟩ := List.forall_mem_cons.mp blank
    rw [List.cons_append, skip_blank first, ih others]

section Spaced

variable {α : Type} {p : Parser α} {a : α}

theorem spaced_read (read : p (skip false s) = .ok a rest) :
    spaced p s = .ok a (skip false rest) := by
  have behind : (space *> p) s = .ok a rest := (seqRight_read (space_apply s)).trans read
  exact seqLeft_read behind (space_apply rest)

theorem spaced_refused (refused : p (skip false s) = .fail) : spaced p s = .fail :=
  seqLeft_refused ((seqRight_read (space_apply s)).trans refused)

end Spaced

/-! ## Chains of operands -/

section Chains

variable {operator : Parser Char} {operand : Parser Tree} {t u : Tree}

/-- Without an operator a chain does not go on. -/
theorem steps_end (ends : operator (skip false rest) = .fail) :
    Parser.many (Prod.mk <$> spaced operator <*> operand) rest = .ok [] rest := by
  apply many_stop
  rw [seq_eq_bind_map]
  exact bind_refused (map_refused (spaced_refused ends))

/-- Without an operator behind it, an operand is a whole chain. -/
theorem infixChain_single (first : operand s = .ok t rest)
    (ends : operator (skip false rest) = .fail) : infixChain operator operand s = .ok t rest :=
  (bind_read first).trans (bind_read (steps_end ends))

/-- Two operands with an operator between them. -/
theorem infixChain_pair (first : operand s = .ok t rest)
    (sign : operator (skip false rest) = .ok c mid)
    (second : operand (skip false mid) = .ok u last) (shorter : last.length < rest.length)
    (ends : operator (skip false last) = .fail) :
    infixChain operator operand s = .ok (operation t (c, u)) last := by
  have step : (Prod.mk <$> spaced operator <*> operand) rest = .ok (c, u) last := by
    rw [seq_eq_bind_map]
    exact (bind_read (map_read (spaced_read sign))).trans (map_read second)
  have steps := many_read step shorter (steps_end ends)
  exact (bind_read first).trans (bind_read steps)

end Chains

/-! ## Sources of one statement -/

section Sources

variable {t : Tree}

/-- Where no edge follows, an expression is a clause. -/
theorem clause_single (read : expression primary s = .ok t rest)
    (edgeless : edge (skip false rest) = .fail) : clause primary s = .ok t rest := by
  refine (bind_read read).trans (bind_read (a := none) ?_)
  rw [opt_apply, bind_refused (spaced_refused edgeless)]

/-- A name without a colon behind it is no label. -/
theorem label_name {name : List Char} (identifier : IsIdentifier name) (apart : Apart rest)
    (colonless : ∀ c ∈ (skip false rest).head?, c ≠ ':') (p : Parser Tree) :
    label p (name ++ rest) = .fail := by
  refine bind_refused ((bind_read (symbol_name identifier apart)).trans (bind_refused ?_))
  exact spaced_refused (Parser.char_other colonless)

section Statement

variable (solid : skip false s = s) (begins : ∀ u, s ≠ ';' :: u)

include solid begins

theorem statements_solid : statements primary s = Parser.many (item primary) s :=
  statements_apply primary (semicolons_none (by rwa [solid]))

/-- A source that is one statement. -/
theorem read_single (read : statement primary s = .ok t []) :
    SourceForm.statements.read s = .ok (Tree.branch "composite" [t]) := by
  have whole : item primary s = .ok t [] := by
    rw [item_apply, solid]
    exact seqLeft_read read (terminator_apply [])
  have some : 0 < s.length := by
    refine List.length_pos_iff.mpr ?_
    rintro rfl
    rw [waits_primary.statement.nil] at read
    cases read
  have items := many_read whole some (many_stop (item_blank waits_primary rfl))
  refine (read_statements_iff s _).mpr ⟨[t], (program_iff s [t]).mpr ⟨[], ?_, rfl⟩, rfl⟩
  exact (statements_solid solid begins).trans items

/-- Reading stops at the beginning of a source whose first statement does not end. -/
theorem read_unended (read : statement primary s = .ok t rest)
    (unended : terminator rest = .fail) :
    SourceForm.statements.read s = .error (stopped s s) := by
  have refused : item primary s = .fail := by
    rw [item_apply, solid]
    exact (bind_read read).trans (bind_refused unended)
  have none : program s = .ok [] s := by
    have read := (statements_solid solid begins).trans (many_stop refused)
    exact seqLeft_read read ((space_apply s).trans (by rw [solid]))
  rw [SourceForm.read, readAll, none]
  cases s with
  | nil =>
    rw [waits_primary.statement.nil] at read
    cases read
  | cons => rfl

end Statement

end Sources

/-! ## Two names and an operator -/

/-- The word is a name, but not that of a shape. -/
structure IsVariable (name : List Char) : Prop where
  identifier : IsIdentifier name
  free : Shape.ofName? (String.ofList name) = none

/-- A variable is an operand. -/
theorem IsVariable.application {name : List Char} (variable_ : IsVariable name)
    (apart : Apart rest) : application primary (name ++ rest) = .ok (Tree.symbol name) rest :=
  application_name variable_.identifier apart variable_.free

/-- The operators between expressions. -/
def operators : List Char :=
  ['+', '-', '*', '/']

section Operators

variable {op : Char} (is_operator : op ∈ operators)

include is_operator

theorem operators_cases : op = '+' ∨ op = '-' ∨ op = '*' ∨ op = '/' := by
  simpa [operators] using is_operator

/-- What holds of every operator holds of this one. -/
theorem of_operators {P : Char → Prop} [DecidablePred P] (each : operators.all (P ·) = true) :
    P op :=
  of_decide_eq_true (List.all_eq_true.mp each op is_operator)

end Operators

/-- Two variables with an operator between them and blanks around it. -/
structure Infix where
  left : List Char
  before : List Char
  op : Char
  after : List Char
  right : List Char
  left_variable : IsVariable left
  blank_before : ∀ c ∈ before, isSpace c = true
  is_operator : op ∈ operators
  blank_after : ∀ c ∈ after, isSpace c = true
  right_variable : IsVariable right

namespace Infix

/-- What stands behind the operator. -/
def behind (e : Infix) : List Char :=
  e.after ++ e.right

/-- The text from the operator on. -/
def onward (e : Infix) : List Char :=
  e.op :: e.behind

/-- What stands behind the first variable. -/
def tail (e : Infix) : List Char :=
  e.before ++ e.onward

/-- The whole text. -/
def source (e : Infix) : List Char :=
  e.left ++ e.tail

/-- The operation on the two variables. -/
def tree (e : Infix) : Tree :=
  Tree.branch "call" [Tree.symbol [e.op], Tree.symbol e.left, Tree.symbol e.right]

/-- The operator is a minus with an `o` right behind it. -/
def Clings (e : Infix) : Prop :=
  e.op = '-' ∧ e.behind.head? = some 'o'

instance (e : Infix) : Decidable e.Clings :=
  inferInstanceAs (Decidable (_ ∧ _))

variable (e : Infix)

/-! ### What stands behind the operator -/

/-- Behind the operator stands a blank, or a name begins. -/
theorem head_behind : ∀ c ∈ e.behind.head?, isSpace c = true ∨ startsName c = true := by
  rw [behind]
  cases after : e.after with
  | nil =>
    obtain ⟨c, word, begins, starts⟩ := e.right_variable.identifier.head []
    rw [List.append_nil] at begins
    rw [List.nil_append, begins]
    rintro _ ⟨⟩
    exact .inr starts
  | cons c blanks =>
    rintro _ ⟨⟩
    exact .inl (e.blank_after c (by rw [after]; exact List.mem_cons_self))

theorem behind_ne {c : Char} (solid : isSpace c = false) (other : startsName c = false)
    (u : List Char) : e.behind ≠ c :: u := by
  intro begins
  have first := e.head_behind c (by rw [begins]; rfl)
  rw [solid, other] at first
  simp at first

/-- Behind the blanks there is the second variable. -/
theorem skip_behind : skip false e.behind = e.right := by
  have name := skip_name e.right_variable.identifier []
  rw [List.append_nil] at name
  rw [behind, skip_blanks e.blank_after, name]

/-- A minus and the second variable do not begin with an edge. -/
theorem behind_ne_pin (u : List Char) : e.behind ≠ 'o' :: '-' :: u := by
  rw [behind]
  cases after : e.after with
  | nil =>
    intro begins
    have whole : e.right = 'o' :: '-' :: u := begins
    have continues := e.right_variable.identifier.all '-' (by rw [whole]; simp)
    cases continues
  | cons c blanks =>
    intro begins
    have blank := e.blank_after c (by rw [after]; exact List.mem_cons_self)
    rw [(List.cons_eq_cons.mp begins).1] at blank
    cases blank

theorem edge_onward : edge e.onward = .fail := by
  rw [onward]
  obtain same | same | same | same := operators_cases e.is_operator
  · rw [same]
    rfl
  · rw [same]
    have pin : Parser.text ['-', 'o', '-'] ('-' :: e.behind) = .fail := by
      refine (text_cases _ _).resolve_right ?_
      rintro ⟨u, begins, _⟩
      exact e.behind_ne_pin u (List.cons.inj begins).2
    have rigid : Parser.text ['-', '-'] ('-' :: e.behind) = .fail := by
      refine (text_cases _ _).resolve_right ?_
      rintro ⟨u, begins, _⟩
      exact e.behind_ne rfl rfl u (List.cons.inj begins).2
    rw [edge, Parser.oneOf, List.foldr_cons, orElse_apply, seqRight_refused pin]
    refine (orElse_apply _ _ _).trans ?_
    rw [seqRight_refused rigid]
    rfl
  · rw [same]
    rfl
  · rw [same]
    rfl

/-! ### What stands behind the first variable -/

theorem skip_tail : skip false e.tail = e.onward := by
  rw [tail, skip_blanks e.blank_before]
  have solid : isSpace e.op = false := of_operators e.is_operator (P := (isSpace · = false)) rfl
  exact skip_stop solid fun u _ => e.behind_ne rfl rfl u

theorem apart_tail : Apart e.tail where
  ends := by
    rw [tail]
    cases before : e.before with
    | nil =>
      rintro _ ⟨⟩
      exact of_operators e.is_operator (P := (continuesName · = false)) rfl
    | cons c blanks =>
      rintro _ ⟨⟩
      have blank := e.blank_before c (by rw [before]; exact List.mem_cons_self)
      by_contra continues
      rw [isSpace_of_continuesName (Bool.not_eq_false _ ▸ continues)] at blank
      cases blank
  next := by
    rw [e.skip_tail]
    rintro _ ⟨⟩
    exact of_operators e.is_operator (P := fun c => c ≠ '(' ∧ c ≠ '"' ∧ startsName c = false) rfl

/-! ### The operator -/

/-- A minus is read if no `o` clings to it. -/
theorem additive_minus : additiveOperator ('-' :: e.behind) =
    if e.behind.head? = some 'o' then .fail else .ok '-' e.behind := by
  have dashless : ∀ u, e.behind ≠ '-' :: u := e.behind_ne rfl rfl
  have minus : Parser.char '-' ('-' :: e.behind) = .ok '-' e.behind := rfl
  generalize e.behind = s at dashless minus ⊢
  show (Parser.char '-' <* Parser.notAhead (Parser.satisfy _)) ('-' :: s) = _
  split
  · rename_i clings
    obtain ⟨u, rfl⟩ := List.head?_eq_some_iff.mp clings
    rfl
  · rename_i free
    refine seqLeft_read (b := ()) minus ?_
    have other : ∀ c ∈ s.head?, (c = '-' || c = 'o') = false := by
      intro c first
      have dash : c ≠ '-' := by
        rintro rfl
        obtain ⟨u, rfl⟩ := List.head?_eq_some_iff.mp first
        exact dashless u rfl
      have o : c ≠ 'o' := by
        rintro rfl
        exact free first
      simp [dash, o]
    rw [Parser.notAhead, Parser.satisfy_other other]

/-- The operator is read in one of the two chains, unless it is a minus that an `o` clings to. -/
theorem operator_cases :
    (¬ e.Clings ∧ multiplicativeOperator e.onward = .fail ∧
      additiveOperator e.onward = .ok e.op e.behind) ∨
    (¬ e.Clings ∧ multiplicativeOperator e.onward = .ok e.op e.behind) ∨
    (e.Clings ∧ multiplicativeOperator e.onward = .fail ∧ additiveOperator e.onward = .fail) := by
  rw [onward, Clings]
  obtain same | same | same | same := operators_cases e.is_operator
  · rw [same]
    exact .inl ⟨nofun, rfl, rfl⟩
  · rw [same, e.additive_minus]
    by_cases clings : e.behind.head? = some 'o'
    · rw [if_pos clings]
      exact .inr (.inr ⟨⟨rfl, clings⟩, rfl, rfl⟩)
    · rw [if_neg clings]
      exact .inl ⟨fun both => clings both.2, rfl, rfl⟩
  · rw [same]
    exact .inr (.inl ⟨nofun, rfl⟩)
  · rw [same]
    exact .inr (.inl ⟨nofun, rfl⟩)

/-! ### The whole text -/

theorem application_left : application primary e.source = .ok (Tree.symbol e.left) e.tail :=
  e.left_variable.application e.apart_tail

theorem application_right :
    application primary (skip false e.behind) = .ok (Tree.symbol e.right) [] := by
  have apart : Apart [] := ⟨nofun, nofun⟩
  have operand := e.right_variable.application apart
  rw [List.append_nil] at operand
  rw [e.skip_behind, operand]

/-- Where the operator belongs to no product, the first variable is a whole term. -/
theorem term_left (plain : multiplicativeOperator e.onward = .fail) :
    term primary e.source = .ok (Tree.symbol e.left) e.tail :=
  infixChain_single e.application_left (by rw [e.skip_tail, plain])

/-- The text is one expression. -/
theorem expression_source (free : ¬ e.Clings) : expression primary e.source = .ok e.tree [] := by
  have shorter : ([] : List Char).length < e.tail.length := by
    rw [tail, onward, List.length_append, List.length_cons, List.length_nil]
    omega
  have right : term primary (skip false e.behind) = .ok (Tree.symbol e.right) [] :=
    infixChain_single e.application_right rfl
  obtain ⟨_, plain, read⟩ | ⟨_, read⟩ | ⟨clings, _⟩ := e.operator_cases
  · exact infixChain_pair (e.term_left plain) (by rw [e.skip_tail, read]) right shorter rfl
  · have product : term primary e.source = .ok e.tree [] :=
      infixChain_pair e.application_left (by rw [e.skip_tail, read]) e.application_right shorter rfl
    exact infixChain_single product rfl
  · exact absurd clings free

/-- If an `o` clings to a minus, the expression ends before it. -/
theorem expression_left (clings : e.Clings) :
    expression primary e.source = .ok (Tree.symbol e.left) e.tail := by
  obtain ⟨free, _⟩ | ⟨free, _⟩ | ⟨_, plain, refused⟩ := e.operator_cases
  · exact absurd clings free
  · exact absurd clings free
  · exact infixChain_single (e.term_left plain) (by rw [e.skip_tail, refused])

/-- What is read as a clause is a statement, for there is no colon behind the first variable. -/
theorem statement_source {t : Tree} (read : clause primary e.source = .ok t rest) :
    statement primary e.source = .ok t rest := by
  have colonless : ∀ c ∈ (skip false e.tail).head?, c ≠ ':' := by
    rw [e.skip_tail]
    rintro _ ⟨⟩
    exact of_operators e.is_operator (P := (· ≠ ':')) rfl
  have unlabelled : label primary e.source = .fail :=
    label_name e.left_variable.identifier e.apart_tail colonless primary
  rw [statement, orElse_apply, unlabelled]
  exact read

theorem skip_source : skip false e.source = e.source :=
  skip_name e.left_variable.identifier e.tail

theorem source_ne (u : List Char) : e.source ≠ ';' :: u := by
  obtain ⟨c, word, begins, starts⟩ := e.left_variable.identifier.head e.tail
  rw [source, begins]
  rintro ⟨⟩
  cases starts

theorem read_free (free : ¬ e.Clings) :
    SourceForm.statements.read e.source = .ok (Tree.branch "composite" [e.tree]) :=
  read_single e.skip_source e.source_ne
    (e.statement_source (clause_single (e.expression_source free) rfl))

theorem read_clings (clings : e.Clings) :
    SourceForm.statements.read e.source = .error (stopped e.source e.source) := by
  have edgeless : edge (skip false e.tail) = .fail := by
    rw [e.skip_tail, e.edge_onward]
  have first := e.statement_source (clause_single (e.expression_left clings) edgeless)
  refine read_unended e.skip_source e.source_ne first ?_
  rw [terminator_apply, e.skip_tail, onward, clings.1]
  rfl

/-- Two variables with an operator between them, and any blanks around it.  The text from the
operator on never begins with an edge.  The whole text is the operation on the two variables, but
for a minus with an `o` right behind it: then none of it can be read. -/
theorem read_operation : edge e.onward = .fail ∧
    SourceForm.statements.read e.source = if e.Clings then .error (stopped e.source e.source)
      else .ok (Tree.branch "composite" [e.tree]) := by
  refine ⟨e.edge_onward, ?_⟩
  split
  · rename_i clings
    exact e.read_clings clings
  · rename_i free
    exact e.read_free free

/-- A difference without blanks. -/
def offset : Infix where
  left := ['x']
  before := []
  op := '-'
  after := []
  right := ['o', 'f', 'f', 's', 'e', 't']
  left_variable := ⟨⟨rfl, List.forall_mem_nil _⟩, rfl⟩
  blank_before := List.forall_mem_nil _
  is_operator := by decide
  blank_after := List.forall_mem_nil _
  right_variable := ⟨⟨rfl, List.all_eq_true.mp rfl⟩, rfl⟩

/-- No edge begins with its operator, and yet it is not read. -/
theorem offset_refused : edge offset.onward = .fail ∧
    SourceForm.statements.read offset.source ≠ .ok (Tree.branch "composite" [offset.tree]) := by
  refine ⟨offset.edge_onward, ?_⟩
  rw [offset.read_clings ⟨rfl, rfl⟩]
  nofun

end Infix

end Statements

end RigidScene.Syntax
