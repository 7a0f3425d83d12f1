import RigidScene.Program.OfTree
import RigidScene.Proofs.Outcome
import RigidScene.Proofs.Syntax.Spelling

/-!
Every tree of the statement notation is a program.

`Spelled` says what trees the notation has; here each of them is accepted.  The two meet in
`read_is_program`: a source that can be read is never refused afterwards.
-/

namespace RigidScene

open RigidScene.Syntax
open RigidScene.Program

/-- The tree is accepted as what its role says. -/
def Accepted : Role → Tree → Prop
  | .node, t => ∃ node, Node.ofTree t = .ok node
  | .attr, t =>
    (Tag.ofName? t.tag = some .attr ∨ Tag.ofName? t.tag = some .flag) ∧
      ∃ attr, Node.attributeOfTree t = .ok attr

section Parts

variable {t : Tree}

/-- What is accepted as an expression has no tag that a body would take for attributes. -/
theorem tag_of_ofTree {node : Node} (accepted : Node.ofTree t = .ok node) :
    Tag.ofName? t.tag ≠ some .attr ∧ Tag.ofName? t.tag ≠ some .flag ∧
      Tag.ofName? t.tag ≠ some .attrs := by
  obtain ⟨tag, text, children⟩ := t
  refine ⟨?_, ?_, ?_⟩ <;>
  · intro known
    rw [Tree.tag] at known
    unfold Node.ofTree at accepted
    rw [known] at accepted
    cases accepted

theorem ofTrees_eq (ts : List Tree) : Node.ofTrees ts = ts.mapM Node.ofTree := by
  induction ts with
  | nil => rfl
  | cons t ts ih => rw [Node.ofTrees, List.mapM_cons, ih]

theorem attributesOfTrees_eq (ts : List Tree) :
    Node.attributesOfTrees ts = ts.mapM Node.attributeOfTree := by
  induction ts with
  | nil => rfl
  | cons t ts ih => rw [Node.attributesOfTrees, List.mapM_cons, ih]

theorem ofTrees_ok {ts : List Tree} (each : ∀ t ∈ ts, Accepted .node t) :
    ∃ nodes, Node.ofTrees ts = .ok nodes := by
  rw [ofTrees_eq]
  exact Outcome.mapM_ok each

theorem attributeListOfTree_ok {ts : List Tree} (each : ∀ t ∈ ts, Accepted .attr t) :
    ∃ attrs, Node.attributeListOfTree (Tree.branch "attrs" ts) = .ok attrs := by
  rw [Tree.branch, Node.attributeListOfTree, if_pos rfl, attributesOfTrees_eq]
  exact Outcome.mapM_ok fun t member => (each t member).2

/-- A body sorts its items by their tags. -/
theorem bodyItemsOfTrees_ok {items : List (Role × Tree)} (each : ∀ i ∈ items, Accepted i.1 i.2) :
    ∃ sorted, Node.bodyItemsOfTrees (items.map Prod.snd) = .ok sorted := by
  induction items with
  | nil => exact ⟨([], []), by rw [List.map_nil, Node.bodyItemsOfTrees]⟩
  | cons i items ih =>
    obtain ⟨first, others⟩ := List.forall_mem_cons.mp each
    obtain ⟨sorted, rest⟩ := ih others
    obtain ⟨role, t⟩ := i
    cases role with
    | node =>
      obtain ⟨node, first⟩ := first
      obtain ⟨no_attr, no_flag, no_attrs⟩ := tag_of_ofTree first
      refine ⟨(node :: sorted.1, sorted.2), ?_⟩
      rw [List.map_cons, Node.bodyItemsOfTrees, first, rest]
      split
      · contradiction
      · contradiction
      · contradiction
      · rfl
    | attr =>
      obtain ⟨known, attr, first⟩ := first
      refine ⟨(sorted.1, attr :: sorted.2), ?_⟩
      rw [List.map_cons, Node.bodyItemsOfTrees, first, rest]
      rcases known with known | known <;> rw [known] <;> rfl

theorem symbolName_symbol (name : List Char) : ∃ text, symbolName (Tree.symbol name) = .ok text :=
  ⟨_, rfl⟩

theorem parameterNames_ok (names : List (List Char)) :
    ∃ params, parameterNames (Tree.branch "params" (names.map Tree.symbol)) = .ok params := by
  have each : ∀ t ∈ names.map Tree.symbol, ∃ text, symbolName t = .ok text := by
    intro t member
    obtain ⟨name, _, rfl⟩ := List.mem_map.mp member
    exact symbolName_symbol name
  exact Outcome.mapM_ok each

theorem shapeName_ok {shape : Tree}
    (named : ∃ name, shape = Tree.symbol name ∨ shape = Tree.string name) :
    ∃ text, shapeName shape = .ok text := by
  obtain ⟨name, rfl | rfl⟩ := named
  · exact ⟨_, rfl⟩
  · exact ⟨_, rfl⟩

theorem edgeKind_ok (kind : EdgeKind) : edgeKind (Tree.branch kind.name []) = .ok kind := by
  cases kind <;> rfl

theorem numberValue_ok {text : List Char} (numeral : IsNumeral text) :
    ∃ x, numberValue (Tree.number text) = .ok x := by
  obtain ⟨x, read⟩ := read?_numeral numeral
  refine ⟨x, ?_⟩
  simp only [numberValue, tokenText, Tree.number, Tree.leaf, Tree.text, String.toList_ofList,
    trimBlanks_solid numeral.solid, read, bind, Except.bind]

/-- An edge without attributes has three children, any other one four. -/
theorem constraint_ok {source target : Tree} {items : List Tree} {s t : Node} (kind : EdgeKind)
    (first : Node.ofTree source = .ok s) (second : Node.ofTree target = .ok t)
    (each : ∀ i ∈ items, Accepted .attr i) :
    ∃ attrs, Node.ofTree (Tree.branch "constraint" ([source, Tree.branch kind.name [], target] ++
      Statements.attributeList items)) = .ok (.constraint s kind t attrs) := by
  cases items with
  | nil =>
    refine ⟨[], ?_⟩
    show (do
      let source ← Node.ofTree source
      let kind ← edgeKind (Tree.branch kind.name [])
      let target ← Node.ofTree target
      return Node.constraint source kind target []) = _
    rw [first, edgeKind_ok, second]
    rfl
  | cons item items =>
    obtain ⟨attrs, listed⟩ := attributeListOfTree_ok each
    refine ⟨attrs, ?_⟩
    show (do
      let source ← Node.ofTree source
      let kind ← edgeKind (Tree.branch kind.name [])
      let target ← Node.ofTree target
      let attrs ← Node.attributeListOfTree (Tree.branch "attrs" (item :: items))
      return Node.constraint source kind target attrs) = _
    rw [first, edgeKind_ok, second, listed]
    rfl

theorem scope_ok {block : Tree} {items : List Tree} {node : Node}
    (inside : Node.ofTree block = .ok node) (each : ∀ i ∈ items, Accepted .attr i) :
    ∃ attrs, Node.ofTree (Tree.branch "scope" (block :: Statements.attributeList items)) =
      .ok (.scope node attrs) := by
  cases items with
  | nil =>
    refine ⟨[], ?_⟩
    show (do
      let block ← Node.ofTree block
      return Node.scope block []) = _
    rw [inside]
    rfl
  | cons item items =>
    obtain ⟨attrs, listed⟩ := attributeListOfTree_ok each
    refine ⟨attrs, ?_⟩
    show (do
      let block ← Node.ofTree block
      let attrs ← Node.attributeListOfTree (Tree.branch "attrs" (item :: items))
      return Node.scope block attrs) = _
    rw [inside, listed]
    rfl

end Parts

/-- Each tree of the statement notation is accepted as what it stands for. -/
theorem Syntax.Spelled.accepted {role : Role} {t : Tree} (spelled : Spelled role t) :
    Accepted role t := by
  induction spelled with
  | symbol name => exact ⟨.symbol _, rfl⟩
  | string text => exact ⟨.string _, rfl⟩
  | @number text numeral =>
    obtain ⟨x, read⟩ := numberValue_ok numeral
    refine ⟨.number x, ?_⟩
    show Node.number <$> numberValue (Tree.number text) = _
    rw [read]
    rfl
  | @vector x y _ _ first second =>
    obtain ⟨vx, first⟩ := first
    obtain ⟨vy, second⟩ := second
    refine ⟨.vector vx vy, ?_⟩
    show (do
      let x ← Node.ofTree x
      let y ← Node.ofTree y
      return Node.vector x y) = _
    rw [first, second]
    rfl
  | @call name args _ each =>
    obtain ⟨callee, named⟩ := symbolName_symbol name
    obtain ⟨nodes, listed⟩ := ofTrees_ok each
    refine ⟨.call callee nodes, ?_⟩
    show (do
      let callee ← symbolName (Tree.symbol name)
      let args ← Node.ofTrees args
      return Node.call callee args) = _
    rw [named, listed]
    rfl
  | @function names result _ inside | @lambda names result _ inside =>
    obtain ⟨params, named⟩ := parameterNames_ok names
    obtain ⟨node, inside⟩ := inside
    refine ⟨.function params node, ?_⟩
    show (do
      let params ← parameterNames (Tree.branch "params" (names.map Tree.symbol))
      let result ← Node.ofTree result
      return Node.function params result) = _
    rw [named, inside]
    rfl
  | @body shape items named _ each =>
    obtain ⟨name, named⟩ := shapeName_ok named
    obtain ⟨sorted, listed⟩ := bodyItemsOfTrees_ok each
    refine ⟨.body name sorted.1 sorted.2, ?_⟩
    show (do
      let shape ← shapeName shape
      let sorted ← Node.bodyItemsOfTrees (items.map Prod.snd)
      return Node.body shape sorted.1 sorted.2) = _
    rw [named, listed]
    rfl
  | constraint kind _ _ _ first second each =>
    obtain ⟨_, first⟩ := first
    obtain ⟨_, second⟩ := second
    obtain ⟨_, made⟩ := constraint_ok kind first second each
    exact ⟨_, made⟩
  | @composite statements _ each =>
    obtain ⟨nodes, listed⟩ := ofTrees_ok each
    refine ⟨.composite nodes, ?_⟩
    show Node.composite <$> Node.ofTrees statements = _
    rw [listed]
    rfl
  | scope _ _ inside each =>
    obtain ⟨_, inside⟩ := inside
    obtain ⟨_, made⟩ := scope_ok inside each
    exact ⟨_, made⟩
  | @label name value _ inside =>
    obtain ⟨text, named⟩ := symbolName_symbol name
    obtain ⟨node, inside⟩ := inside
    refine ⟨.label text node, ?_⟩
    show (do
      let name ← symbolName (Tree.symbol name)
      let value ← Node.ofTree value
      return Node.label name value) = _
    rw [named, inside]
    rfl
  | @keyValue key value _ inside =>
    obtain ⟨text, named⟩ := symbolName_symbol key
    obtain ⟨node, inside⟩ := inside
    refine ⟨.inl rfl, (text, node), ?_⟩
    show (do
      let key ← symbolName (Tree.symbol key)
      let value ← Node.ofTree value
      return (key, value)) = _
    rw [named, inside]
    rfl
  | flag key => exact ⟨.inr rfl, (_, .bool true), rfl⟩

/-- A source that the statement notation can read is a program: its tree is never refused. -/
theorem read_is_program {source : List Char} {tree : Tree}
    (read : SourceForm.statements.read source = .ok tree) :
    ∃ program, Node.ofTree tree = .ok program :=
  (read_spelled read).accepted

/-- A source with every construct of the notation. -/
def everyConstruct : String :=
  "f: fn(x, y) \x7b x ~~ y length=1e1 \x7d; " ++
  "\x7b f(body \"circle\" 0 -1 .5 #static, |i| i * 2) \x7d translate=[1, 2]"

/-- It can be read, so it is a program. -/
theorem everyConstruct_is_program : ∃ tree program,
    SourceForm.statements.read everyConstruct.toList = .ok tree ∧
      Node.ofTree tree = .ok program := by
  have reads : (SourceForm.statements.read everyConstruct.toList).isOk = true := by decide +kernel
  cases read : SourceForm.statements.read everyConstruct.toList with
  | error e =>
    rw [read] at reads
    cases reads
  | ok tree =>
    obtain ⟨program, accepted⟩ := read_is_program read
    exact ⟨tree, program, rfl, accepted⟩

end RigidScene
