import RigidScene.Proofs.Syntax.Numeral
import RigidScene.Syntax.Source

/-!
The trees that the statement notation spells.

`Spelled` lists them: one constructor for every construct, with all that its children can be.  Every
rule of the grammar yields such trees if the rule for primary expressions does, so by `Yields.knot`
all do, and the tree of a whole source is one (`read_spelled`).
-/

namespace RigidScene.Syntax

open RigidScene.Text
open RigidScene.Text.Parser (Yields)

/-- What a tree stands for. -/
inductive Role where
  /-- An expression or a statement. -/
  | node
  | attr

/-- The tree is one that the statement notation spells for something of the role. -/
inductive Spelled : Role → Tree → Prop where
  | symbol (name) : Spelled .node (Tree.symbol name)
  | string (text) : Spelled .node (Tree.string text)
  | number {text} (numeral : IsNumeral text) : Spelled .node (Tree.number text)
  | vector {x y} (first : Spelled .node x) (second : Spelled .node y) :
    Spelled .node (Tree.branch "vector" [x, y])
  /-- A call, or an operation with the operator as its name. -/
  | call {name args} (args_ : ∀ t ∈ args, Spelled .node t) :
    Spelled .node (Tree.branch "call" (Tree.symbol name :: args))
  | function {names : List (List Char)} {result} (result_ : Spelled .node result) :
    Spelled .node (Tree.branch "fn" [Tree.branch "params" (names.map Tree.symbol), result])
  | lambda {names : List (List Char)} {result} (result_ : Spelled .node result) :
    Spelled .node (Tree.branch "lambda" [Tree.branch "params" (names.map Tree.symbol), result])
  /-- Arguments and attributes of a body may be mixed. -/
  | body {shape} {items : List (Role × Tree)}
    (shape_ : ∃ name, shape = Tree.symbol name ∨ shape = Tree.string name)
    (items_ : ∀ i ∈ items, Spelled i.1 i.2) :
    Spelled .node (Tree.branch "body" (shape :: items.map Prod.snd))
  | constraint {source target items} (kind : EdgeKind) (source_ : Spelled .node source)
    (target_ : Spelled .node target) (items_ : ∀ t ∈ items, Spelled .attr t) :
    Spelled .node (Tree.branch "constraint"
      ([source, Tree.branch kind.name [], target] ++ Statements.attributeList items))
  | composite {statements} (statements_ : ∀ t ∈ statements, Spelled .node t) :
    Spelled .node (Tree.branch "composite" statements)
  | scope {block items} (block_ : Spelled .node block)
    (items_ : ∀ t ∈ items, Spelled .attr t) :
    Spelled .node (Tree.branch "scope" (block :: Statements.attributeList items))
  | label {name value} (value_ : Spelled .node value) :
    Spelled .node (Tree.branch "label" [Tree.symbol name, value])
  | keyValue {key value} (value_ : Spelled .node value) :
    Spelled .attr (Tree.branch "attr" [Tree.symbol key, value])
  | flag (key) : Spelled .attr (Tree.branch "flag" [Tree.symbol key])

/-- Items that all come from something come from a list. -/
theorem exists_map {α β : Type} {f : β → α} {P : β → Prop} {as : List α}
    (each : ∀ a ∈ as, ∃ b, P b ∧ f b = a) : ∃ bs : List β, (∀ b ∈ bs, P b) ∧ bs.map f = as := by
  induction as with
  | nil => exact ⟨[], List.forall_mem_nil _, rfl⟩
  | cons a as ih =>
    obtain ⟨⟨b, holds, rfl⟩, others⟩ := List.forall_mem_cons.mp each
    obtain ⟨bs, all, rfl⟩ := ih others
    exact ⟨b :: bs, List.forall_mem_cons.mpr ⟨holds, all⟩, rfl⟩

/-- The tree is a name. -/
def IsName (t : Tree) : Prop :=
  ∃ name, t = Tree.symbol name

theorem number_yields : number.Yields (Spelled .node) :=
  numeral_yields.map fun _ => .number

theorem string_yields : string.Yields fun t => ∃ text, t = Tree.string text := by
  apply (Yields.any _).bind
  intro _ _
  apply (Yields.any _).bind
  intro text _
  exact (Yields.any _).bind fun _ _ => .pure ⟨text, rfl⟩

namespace Statements

theorem symbol_yields : symbol.Yields IsName :=
  (Yields.any _).map fun name _ => ⟨name, rfl⟩

/-- A chain of operations is a spelled tree if its operands are. -/
theorem infixChain_yields {operator : Parser Char} {operand : Parser Tree}
    (yields : operand.Yields (Spelled .node)) :
    (infixChain operator operand).Yields (Spelled .node) := by
  apply yields.bind
  intro first spelled
  have step : (Prod.mk <$> spaced operator <*> operand).Yields fun s => Spelled .node s.2 :=
    (Yields.any _).seq yields fun _ _ _ operand => operand
  apply step.many.bind
  intro steps operands
  apply Yields.pure
  induction steps generalizing first with
  | nil => exact spelled
  | cons s steps ih =>
    obtain ⟨operand, others⟩ := List.forall_mem_cons.mp operands
    exact ih (operation first s) (.call (by simp [spelled, operand])) others

/-- The names between parentheses or bars. -/
theorem parameters_yields :
    parameters.Yields fun t => ∃ names : List (List Char), t = Tree.branch "params" (names.map Tree.symbol) := by
  apply (Yields.before (Yields.behind (symbol_yields.sepBy comma))).map
  intro ts each
  have from_names : ∀ t ∈ ts, ∃ name, True ∧ Tree.symbol name = t := by
    intro t member
    obtain ⟨name, rfl⟩ := each t member
    exact ⟨name, trivial, rfl⟩
  obtain ⟨names, _, rfl⟩ := exists_map from_names
  exact ⟨names, rfl⟩

section Rules

variable {primary : Parser Tree} (yields : primary.Yields (Spelled .node))

include yields

theorem keyValue_yields : (keyValue primary).Yields (Spelled .attr) := by
  apply (Yields.before symbol_yields).bind
  rintro _ ⟨key, rfl⟩
  exact yields.bind fun value spelled => .pure (.keyValue spelled)

theorem attributeItem_yields : (attributeItem primary).Yields (Spelled .attr) := by
  apply (keyValue_yields yields).orElse
  apply (Yields.behind symbol_yields).bind
  rintro _ ⟨key, rfl⟩
  exact .pure (.flag key)

theorem attributes_yields : (attributes primary).Yields fun ts => ∀ t ∈ ts, Spelled .attr t :=
  (Yields.behind (attributeItem_yields yields)).many

theorem body_yields : (body primary).Yields (Spelled .node) := by
  have shape : (Parser.orElse (Parser.text "body".toList *> gap *> Parser.orElse symbol string)
      shapeName).Yields fun t => ∃ name, t = Tree.symbol name ∨ t = Tree.string name := by
    apply Yields.orElse
    · apply Yields.behind
      apply Yields.orElse
      · exact symbol_yields.mono fun t ⟨name, same⟩ => ⟨name, .inl same⟩
      · exact string_yields.mono fun t ⟨text, same⟩ => ⟨text, .inr same⟩
    · apply (Yields.any identifier).bind
      intro name _
      split
      · exact .pure ⟨name, .inl rfl⟩
      · exact .failure
  have item : (Parser.orElse (attributeItem primary) primary).Yields
      fun t => ∃ i : Role × Tree, Spelled i.1 i.2 ∧ i.2 = t :=
    ((attributeItem_yields yields).mono fun t spelled => ⟨(.attr, t), spelled, rfl⟩).orElse
      (yields.mono fun t spelled => ⟨(.node, t), spelled, rfl⟩)
  apply shape.bind
  intro shape shape_
  apply (Yields.behind item).many.bind
  intro items each
  apply Yields.pure
  obtain ⟨tagged, all, rfl⟩ := exists_map each
  exact .body shape_ all

theorem expression_yields : (expression primary).Yields (Spelled .node) :=
  infixChain_yields (infixChain_yields ((body_yields yields).orElse yields))

theorem clause_yields : (clause primary).Yields (Spelled .node) := by
  have edge : Yields (do
      let kind ← spaced edge
      let target ← expression primary
      let items ← attributes primary
      return (kind, target, items))
      fun tail => Spelled .node tail.2.1 ∧ ∀ t ∈ tail.2.2, Spelled .attr t := by
    apply (Yields.any _).bind
    intro kind _
    apply (expression_yields yields).bind
    intro target target_
    exact (attributes_yields yields).bind fun items items_ => .pure ⟨target_, items_⟩
  apply (expression_yields yields).bind
  intro source source_
  apply edge.opt.bind
  intro tail found
  cases tail with
  | none => exact .pure source_
  | some tail =>
    obtain ⟨target_, items_⟩ := found tail rfl
    exact .pure (.constraint tail.1 source_ target_ items_)

theorem statement_yields : (statement primary).Yields (Spelled .node) := by
  apply Yields.orElse
  · apply (Yields.before symbol_yields).bind
    rintro _ ⟨name, rfl⟩
    exact (clause_yields yields).bind fun value spelled => .pure (.label spelled)
  · exact clause_yields yields

theorem statements_yields : (statements primary).Yields fun ts => ∀ t ∈ ts, Spelled .node t :=
  Yields.behind (Yields.before (Yields.behind (statement_yields yields))).many

theorem block_yields : (block primary).Yields fun ts => ∀ t ∈ ts, Spelled .node t :=
  Yields.before (Yields.before (Yields.behind (statements_yields yields)))

theorem vector_yields : (vector primary).Yields (Spelled .node) := by
  apply (Yields.behind (expression_yields yields)).bind
  intro x x_
  apply (Yields.before (Yields.before (Yields.behind (expression_yields yields)))).bind
  intro y y_
  exact .pure (.vector x_ y_)

theorem scope_yields : (scope primary).Yields (Spelled .node) := by
  apply (block_yields yields).bind
  intro statements statements_
  apply (attributes_yields yields).bind
  intro items items_
  exact .pure (.scope (.composite statements_) items_)

theorem function_yields : (function primary).Yields (Spelled .node) := by
  apply (Yields.before (Yields.behind parameters_yields)).bind
  rintro _ ⟨names, rfl⟩
  apply (Yields.behind (block_yields yields)).bind
  intro statements statements_
  exact .pure (.function (.composite statements_))

theorem lambda_yields : (lambda primary).Yields (Spelled .node) := by
  apply (Yields.before (Yields.behind parameters_yields)).bind
  rintro _ ⟨names, rfl⟩
  apply (Yields.behind (clause_yields yields)).bind
  intro result result_
  exact .pure (.lambda result_)

theorem call_yields : (call primary).Yields (Spelled .node) := by
  apply (Yields.before (Yields.before symbol_yields)).bind
  rintro _ ⟨name, rfl⟩
  apply (Yields.before (Yields.before ((clause_yields yields).sepBy comma))).bind
  intro args args_
  exact .pure (.call args_)

theorem primaryStep_yields : (primaryStep primary).Yields (Spelled .node) := by
  apply Yields.oneOf
  simp only [List.forall_mem_cons, List.not_mem_nil, IsEmpty.forall_iff, implies_true, and_true]
  refine ⟨number_yields, ?_, vector_yields yields, ?_, scope_yields yields, function_yields yields,
    lambda_yields yields, call_yields yields, ?_⟩
  · apply string_yields.mono
    rintro _ ⟨text, rfl⟩
    exact .string text
  · exact Yields.before (Yields.before (Yields.behind (clause_yields yields)))
  · apply symbol_yields.mono
    rintro _ ⟨name, rfl⟩
    exact .symbol name

end Rules

/-- The grammar spells nothing else. -/
theorem primary_yields : primary.Yields (Spelled .node) :=
  Yields.knot fun _ => primaryStep_yields

theorem program_yields : program.Yields fun ts => ∀ t ∈ ts, Spelled .node t :=
  Yields.before (statements_yields primary_yields)

end Statements

/-- What is read from a source is the value of the parser. -/
theorem readAll_ok {α : Type} {p : Parser α} {source : List Char} {a : α}
    (read : readAll p source = .ok a) : p source = .ok a [] := by
  unfold readAll at read
  split at read
  · rename_i found
    cases read
    exact found
  all_goals cases read

/-- The tree of a source in the statement notation is a spelled tree. -/
theorem read_spelled {source : List Char} {tree : Tree}
    (read : SourceForm.statements.read source = .ok tree) : Spelled .node tree := by
  unfold SourceForm.read at read
  cases parsed : readAll Statements.program source with
  | error e => rw [parsed] at read; cases read
  | ok statements =>
    rw [parsed] at read
    cases read
    exact .composite (Statements.program_yields.value source statements [] (readAll_ok parsed))

end RigidScene.Syntax
