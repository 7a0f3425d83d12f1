import Mathlib.Data.List.Forall2
import RigidScene.Proofs.Program.Acceptance

/-!
What becomes of each node of a tree that is accepted.

A token and the mark of an edge are read without a look at their children; all other nodes are read
with theirs, each child in a place of its own (`Place.Takes`).  So a tag that is not known is found
wherever it stands, but for what is below such a node: that is dropped without a word, whatever it
is.  `unknownTag_refused_iff` is the result.
-/

namespace RigidScene

open Outcome
open RigidScene.Syntax (Tree)
open RigidScene.Program

/-- Nodes with this tag are read without a look at their children. -/
def Tag.isBlind : Tag → Bool
  | symbol | number | string | edge _ => true
  | _ => false

/-- The tree can be read as what the place asks for. -/
def Place.Takes : Place → Tree → Prop
  | bodyShape, t => ∃ name, shapeName t = .ok name
  | edgeKind, t => ∃ kind, Program.edgeKind t = .ok kind
  | attributeList, t => ∃ attrs, Node.attributeListOfTree t = .ok attrs
  | attributeItem, t => ∃ attr, Node.attributeOfTree t = .ok attr
  | parameterList, t => ∃ names, parameterNames t = .ok names
  | name, t => ∃ text, symbolName t = .ok text
  | expression, t => ∃ node, Node.ofTree t = .ok node

namespace Syntax.Tree

/-- The tree with another tag at its root. -/
def retag (tag : String) : Tree → Tree
  | node _ text children => node tag text children

/-- The part of a tree at a place: which child to go to, from the root on. -/
def at? : List Nat → Tree → Option Tree
  | [], t => some t
  | i :: path, t => t.children[i]?.bind (at? path)

/-- The tree with a change to its part at a place. -/
def alter (f : Tree → Tree) : List Nat → Tree → Tree
  | [], t => f t
  | i :: path, node tag text children => node tag text (children.modify i (alter f path))

/-- The root is read without a look at its children. -/
def Blind (t : Tree) : Prop :=
  ∃ tag ∈ Tag.ofName? t.tag, tag.isBlind = true

instance (t : Tree) : Decidable t.Blind :=
  inferInstanceAs (Decidable (∃ tag ∈ Tag.ofName? t.tag, tag.isBlind = true))

/-- Above the place stands a node that is read without a look at its children. -/
def Overlooks (t : Tree) (path : List Nat) : Prop :=
  ∃ front i back above, path = front ++ i :: back ∧ t.at? front = some above ∧ above.Blind

variable {t s : Tree} {i : Nat} {path : List Nat}

theorem not_overlooks_nil : ¬ t.Overlooks [] := by
  rintro ⟨front, i, back, _, whole, _⟩
  exact List.append_ne_nil_of_right_ne_nil front (List.cons_ne_nil i back) whole.symm

theorem overlooks_cons : t.Overlooks (i :: path) ↔
    t.Blind ∨ ∃ child, t.children[i]? = some child ∧ child.Overlooks path := by
  constructor
  · rintro ⟨front, j, back, above, whole, reached, blind⟩
    cases front with
    | nil =>
      cases reached
      exact .inl blind
    | cons k front =>
      obtain ⟨rfl, rfl⟩ := List.cons.inj whole
      obtain ⟨child, held, below⟩ := Option.bind_eq_some_iff.mp reached
      exact .inr ⟨child, held, front, j, back, above, rfl, below, blind⟩
  · rintro (blind | ⟨child, held, front, j, back, above, rfl, below, blind⟩)
    · exact ⟨[], i, path, t, rfl, rfl, blind⟩
    · have reached := Option.bind_eq_some_iff.mpr ⟨child, held, below⟩
      exact ⟨i :: front, j, back, above, rfl, reached, blind⟩

instance decidableOverlooks : (t : Tree) → (path : List Nat) → Decidable (t.Overlooks path)
  | _, [] => isFalse not_overlooks_nil
  | t, i :: path =>
    have : Decidable (∃ child, t.children[i]? = some child ∧ child.Overlooks path) :=
      match t.children[i]? with
      | none => isFalse (by simp)
      | some child =>
        have := decidableOverlooks child path
        decidable_of_iff (child.Overlooks path) (by simp)
    decidable_of_iff _ overlooks_cons.symm

theorem at?_cons : t.at? (i :: path) = some s ↔
    ∃ child, t.children[i]? = some child ∧ child.at? path = some s :=
  Option.bind_eq_some_iff

end Syntax.Tree

/-! ## Nodes that are looked at -/

section Looking

open RigidScene.Syntax.Tree (Blind)

variable {t : Tree} {place : Place}

theorem Syntax.Tree.Blind.known (blind : t.Blind) : (Tag.ofName? t.tag).isSome = true := by
  obtain ⟨tag, named, _⟩ := blind
  exact Option.isSome_of_eq_some named

theorem symbolName_blind {name : String} (read : symbolName t = .ok name) : t.Blind := by
  unfold symbolName at read
  split at read
  · rename_i tag
    exact ⟨.symbol, by rw [tag]; rfl, rfl⟩
  · cases read

theorem shapeName_blind {name : String} (read : shapeName t = .ok name) : t.Blind := by
  unfold shapeName at read
  split at read
  · rename_i tag
    exact ⟨_, tag, rfl⟩
  · rename_i tag
    exact ⟨_, tag, rfl⟩
  · cases read

theorem edgeKind_blind {kind : EdgeKind} (read : edgeKind t = .ok kind) : t.Blind := by
  unfold edgeKind at read
  dsimp only at read
  split at read
  · rename_i tag
    exact ⟨_, tag, rfl⟩
  · rename_i tag
    exact ⟨_, tag, rfl⟩
  · cases read

/-- What can be read in some place has a tag that is known. -/
theorem Place.Takes.known (takes : place.Takes t) : (Tag.ofName? t.tag).isSome = true := by
  cases place with
  | bodyShape =>
    obtain ⟨_, read⟩ := takes
    exact (shapeName_blind read).known
  | edgeKind =>
    obtain ⟨_, read⟩ := takes
    exact (edgeKind_blind read).known
  | name =>
    obtain ⟨_, read⟩ := takes
    exact (symbolName_blind read).known
  | attributeList =>
    obtain ⟨_, read⟩ := takes
    obtain ⟨tag, text, children⟩ := t
    unfold Node.attributeListOfTree at read
    split at read
    · rename_i named
      rw [named]
      rfl
    · cases read
  | parameterList =>
    obtain ⟨_, read⟩ := takes
    unfold parameterNames at read
    split at read
    · rename_i named
      rw [named]
      rfl
    · cases read
  | attributeItem =>
    obtain ⟨_, read⟩ := takes
    obtain ⟨tag, text, children⟩ := t
    unfold Node.attributeOfTree at read
    cases known : Tag.ofName? tag with
    | none => simp [known] at read
    | some _ => simp [Tree.tag, known]
  | expression =>
    obtain ⟨_, read⟩ := takes
    obtain ⟨tag, text, children⟩ := t
    unfold Node.ofTree at read
    cases known : Tag.ofName? tag with
    | none => simp [known] at read
    | some _ => simp [Tree.tag, known]

/-- Every item of a body is read as an attribute, a list of attributes or an argument. -/
theorem bodyItems_taken {items : List Tree} {sorted : List Node × List (String × Node)}
    (read : Node.bodyItemsOfTrees items = .ok sorted) :
    ∀ item ∈ items, ∃ place : Place, place.Takes item := by
  induction items generalizing sorted with
  | nil => exact List.forall_mem_nil _
  | cons item items ih =>
    unfold Node.bodyItemsOfTrees at read
    rw [List.forall_mem_cons]
    split at read
    all_goals
      obtain ⟨first, here, read⟩ := chain_ok_iff.mp read
      obtain ⟨rest, later, _⟩ := chain_ok_iff.mp read
      refine ⟨?_, ih later⟩
    · exact ⟨.attributeItem, first, here⟩
    · exact ⟨.attributeItem, first, here⟩
    · exact ⟨.attributeList, first, here⟩
    · exact ⟨.expression, first, here⟩

theorem statements_taken {statements : List Tree} {nodes : List Node}
    (read : Node.ofTrees statements = .ok nodes) : ∀ t ∈ statements, Place.expression.Takes t := by
  rw [ofTrees_eq] at read
  exact forall_of_mapM read

/-- The children of an attribute that can be read. -/
theorem attribute_children {tag : String} {text : Option String} {children : List Tree}
    {attr : String × Node} (read : Node.attributeOfTree (.node tag text children) = .ok attr) :
    ∀ child ∈ children, ∃ place : Place, place.Takes child := by
  unfold Node.attributeOfTree at read
  split at read
  · split at read
    · obtain ⟨name, named, read⟩ := chain_ok_iff.mp read
      obtain ⟨value, inside, _⟩ := chain_ok_iff.mp read
      simp only [List.forall_mem_cons]
      exact ⟨⟨.name, _, named⟩, ⟨.expression, _, inside⟩, List.forall_mem_nil _⟩
    · cases read
  · split at read
    · obtain ⟨name, named, _⟩ := chain_ok_iff.mp read
      simp only [List.forall_mem_cons]
      exact ⟨⟨.name, _, named⟩, List.forall_mem_nil _⟩
    · cases read
  · cases read

/-- The children of an expression that can be read, if it is looked at. -/
theorem expression_children {tag : String} {text : Option String} {children : List Tree}
    {node : Node} (read : Node.ofTree (.node tag text children) = .ok node)
    (looks : ¬ (Syntax.Tree.node tag text children).Blind) :
    ∀ child ∈ children, ∃ place : Place, place.Takes child := by
  unfold Node.ofTree at read
  cases known : Tag.ofName? tag with
  | none => simp only [known, reduceCtorEq] at read
  | some kind =>
    rw [known] at read
    cases kind with
    | composite =>
      obtain ⟨nodes, listed, _⟩ := mapped_ok_iff.mp read
      exact fun child member => ⟨.expression, statements_taken listed child member⟩
    | body =>
      dsimp only at read
      split at read
      · cases read
      · obtain ⟨shape, named, read⟩ := chain_ok_iff.mp read
        obtain ⟨sorted, listed, _⟩ := chain_ok_iff.mp read
        exact List.forall_mem_cons.mpr ⟨⟨.bodyShape, _, named⟩, bodyItems_taken listed⟩
    | constraint =>
      dsimp only at read
      split at read
      · obtain ⟨_, source, read⟩ := chain_ok_iff.mp read
        obtain ⟨_, kind, read⟩ := chain_ok_iff.mp read
        obtain ⟨_, target, _⟩ := chain_ok_iff.mp read
        simp only [List.forall_mem_cons]
        exact ⟨⟨.expression, _, source⟩, ⟨.edgeKind, _, kind⟩, ⟨.expression, _, target⟩,
          List.forall_mem_nil _⟩
      · obtain ⟨_, source, read⟩ := chain_ok_iff.mp read
        obtain ⟨_, kind, read⟩ := chain_ok_iff.mp read
        obtain ⟨_, target, read⟩ := chain_ok_iff.mp read
        obtain ⟨_, attrs, _⟩ := chain_ok_iff.mp read
        simp only [List.forall_mem_cons]
        exact ⟨⟨.expression, _, source⟩, ⟨.edgeKind, _, kind⟩, ⟨.expression, _, target⟩,
          ⟨.attributeList, _, attrs⟩, List.forall_mem_nil _⟩
      · cases read
    | scope =>
      dsimp only at read
      split at read
      · obtain ⟨_, block, _⟩ := chain_ok_iff.mp read
        exact List.forall_mem_cons.mpr ⟨⟨.expression, _, block⟩, List.forall_mem_nil _⟩
      · obtain ⟨_, block, read⟩ := chain_ok_iff.mp read
        obtain ⟨_, attrs, _⟩ := chain_ok_iff.mp read
        simp only [List.forall_mem_cons]
        exact ⟨⟨.expression, _, block⟩, ⟨.attributeList, _, attrs⟩, List.forall_mem_nil _⟩
      · cases read
    | label =>
      dsimp only at read
      split at read
      · obtain ⟨_, name, read⟩ := chain_ok_iff.mp read
        obtain ⟨_, value, _⟩ := chain_ok_iff.mp read
        simp only [List.forall_mem_cons]
        exact ⟨⟨.name, _, name⟩, ⟨.expression, _, value⟩, List.forall_mem_nil _⟩
      · cases read
    | function =>
      dsimp only at read
      split at read
      · obtain ⟨_, params, read⟩ := chain_ok_iff.mp read
        obtain ⟨_, result, _⟩ := chain_ok_iff.mp read
        simp only [List.forall_mem_cons]
        exact ⟨⟨.parameterList, _, params⟩, ⟨.expression, _, result⟩, List.forall_mem_nil _⟩
      · cases read
    | call =>
      dsimp only at read
      split at read
      · cases read
      · obtain ⟨_, callee, read⟩ := chain_ok_iff.mp read
        obtain ⟨_, args, _⟩ := chain_ok_iff.mp read
        refine List.forall_mem_cons.mpr ⟨⟨.name, _, callee⟩, ?_⟩
        exact fun child member => ⟨.expression, statements_taken args child member⟩
    | vector =>
      dsimp only at read
      split at read
      · obtain ⟨_, x, read⟩ := chain_ok_iff.mp read
        obtain ⟨_, y, _⟩ := chain_ok_iff.mp read
        simp only [List.forall_mem_cons]
        exact ⟨⟨.expression, _, x⟩, ⟨.expression, _, y⟩, List.forall_mem_nil _⟩
      · cases read
    | symbol | number | string => exact absurd ⟨_, known, rfl⟩ looks
    | attrs | attr | flag | params | edge => cases read

/-- Every child of a node that is looked at is read in a place of its own. -/
theorem Place.Takes.children (takes : place.Takes t) (looks : ¬ t.Blind) :
    ∀ child ∈ t.children, ∃ place : Place, place.Takes child := by
  cases place with
  | bodyShape =>
    obtain ⟨_, read⟩ := takes
    exact absurd (shapeName_blind read) looks
  | edgeKind =>
    obtain ⟨_, read⟩ := takes
    exact absurd (edgeKind_blind read) looks
  | name =>
    obtain ⟨_, read⟩ := takes
    exact absurd (symbolName_blind read) looks
  | attributeList =>
    obtain ⟨_, read⟩ := takes
    obtain ⟨tag, text, children⟩ := t
    unfold Node.attributeListOfTree at read
    split at read
    · rw [attributesOfTrees_eq] at read
      exact fun child member => ⟨.attributeItem, forall_of_mapM read child member⟩
    · cases read
  | parameterList =>
    obtain ⟨_, read⟩ := takes
    unfold parameterNames at read
    split at read
    · exact fun child member => ⟨.name, forall_of_mapM read child member⟩
    · cases read
  | attributeItem =>
    obtain ⟨_, read⟩ := takes
    obtain ⟨tag, text, children⟩ := t
    exact attribute_children read
  | expression =>
    obtain ⟨_, read⟩ := takes
    obtain ⟨tag, text, children⟩ := t
    exact expression_children read looks

/-- In a tree that can be read, only what is overlooked may have a tag that is not known. -/
theorem Place.Takes.known_at {path : List Nat} {s : Tree} (takes : place.Takes t)
    (there : t.at? path = some s) (looks : ¬ t.Overlooks path) :
    (Tag.ofName? s.tag).isSome = true := by
  induction path generalizing t place with
  | nil =>
    cases there
    exact takes.known
  | cons i path ih =>
    obtain ⟨child, held, below⟩ := Tree.at?_cons.mp there
    rw [Tree.overlooks_cons, not_or] at looks
    obtain ⟨place, inside⟩ := takes.children looks.1 child (List.mem_of_getElem? held)
    exact ih inside below fun overlooks => looks.2 ⟨child, held, overlooks⟩

end Looking

/-! ## Nodes that are overlooked -/

/-- Two trees that are read alike, whatever the place asks for. -/
structure Syntax.Tree.Twins (t t' : Tree) : Prop where
  tag : t'.tag = t.tag
  text : t'.text = t.text
  node : Node.ofTree t' = Node.ofTree t
  names : parameterNames t' = parameterNames t
  attrs : Node.attributeListOfTree t' = Node.attributeListOfTree t
  attr : Node.attributeOfTree t' = Node.attributeOfTree t

namespace Syntax.Tree.Twins

variable {t t' : Tree} {tag : String} {text : Option String} {cs cs' : List Tree}

theorem refl (t : Tree) : Twins t t :=
  ⟨rfl, rfl, rfl, rfl, rfl, rfl⟩

theorem tokenText (twins : Twins t t') : tokenText t' = tokenText t := by
  rw [Program.tokenText, Program.tokenText, twins.text, twins.tag]

theorem symbolName (twins : Twins t t') : symbolName t' = symbolName t := by
  rw [Program.symbolName, Program.symbolName, symbolText, symbolText, twins.tokenText, twins.tag]

theorem shapeName (twins : Twins t t') : shapeName t' = shapeName t := by
  rw [Program.shapeName, Program.shapeName, symbolText, symbolText, twins.tokenText, twins.tag]

theorem edgeKind (twins : Twins t t') : edgeKind t' = edgeKind t := by
  rw [Program.edgeKind, Program.edgeKind, symbolText, symbolText, twins.tokenText, twins.tag,
    twins.text]

/-- Where children are not looked at, any others may stand for them. -/
theorem of_blind (blind : (Tree.node tag text cs).Blind) :
    Twins (.node tag text cs) (.node tag text cs') := by
  obtain ⟨kind, named, blind⟩ := blind
  have other {name : String} (known : Tag.ofName? name ≠ some kind) : tag ≠ name := by
    rintro rfl
    exact known named
  refine ⟨rfl, rfl, ?_, ?_, ?_, ?_⟩
  · unfold Node.ofTree
    rw [show Tag.ofName? tag = some kind from named]
    cases kind <;> first | rfl | cases blind
  · have list : tag ≠ "params" := other (by rintro ⟨⟩; cases blind)
    exact (if_neg list).trans (if_neg list).symm
  · have list : tag ≠ "attrs" := other (by rintro ⟨⟩; cases blind)
    unfold Node.attributeListOfTree
    rw [if_neg list, if_neg list]
  · unfold Node.attributeOfTree
    rw [show Tag.ofName? tag = some kind from named]
    cases kind <;> first | rfl | cases blind

/-- Lists of twins are read alike, whatever each of their members is read as. -/
theorem mapM_eq {α : Type} {f : Tree → Except TreeError α}
    (alike : ∀ {t t' : Tree}, Twins t t' → f t' = f t) (twins : List.Forall₂ Twins cs cs') :
    cs'.mapM f = cs.mapM f := by
  induction twins with
  | nil => rfl
  | cons first _ ih => rw [List.mapM_cons, List.mapM_cons, alike first, ih]

theorem statements (twins : List.Forall₂ Twins cs cs') : Node.ofTrees cs' = Node.ofTrees cs := by
  rw [ofTrees_eq, ofTrees_eq, mapM_eq node twins]

theorem bodyItems (twins : List.Forall₂ Twins cs cs') :
    Node.bodyItemsOfTrees cs' = Node.bodyItemsOfTrees cs := by
  induction twins with
  | nil => rfl
  | cons first _ ih =>
    rw [Node.bodyItemsOfTrees, Node.bodyItemsOfTrees, first.tag, first.node, first.attrs,
      first.attr, ih]

theorem ofTree_node (twins : List.Forall₂ Twins cs cs') :
    Node.ofTree (.node tag text cs') = Node.ofTree (.node tag text cs) := by
  unfold Node.ofTree
  cases Tag.ofName? tag with
  | none => rfl
  | some kind =>
    cases kind with
    | composite => exact congrArg (Node.composite <$> ·) (statements twins)
    | body =>
      cases twins with
      | nil => rfl
      | cons shape items => simp only [shape.shapeName, bodyItems items]
    | constraint =>
      rcases twins with _ | ⟨source, _ | ⟨kind, _ | ⟨target, _ | ⟨attrs, _ | ⟨_, rest⟩⟩⟩⟩⟩
      · rfl
      · rfl
      · rfl
      · simp only [source.node, kind.edgeKind, target.node]
      · simp only [source.node, kind.edgeKind, target.node, attrs.attrs]
      · simp only [List.length_cons, rest.length_eq]
    | scope =>
      rcases twins with _ | ⟨block, _ | ⟨attrs, _ | ⟨_, rest⟩⟩⟩
      · rfl
      · simp only [block.node]
      · simp only [block.node, attrs.attrs]
      · simp only [List.length_cons, rest.length_eq]
    | label =>
      rcases twins with _ | ⟨name, _ | ⟨value, _ | ⟨_, rest⟩⟩⟩
      · rfl
      · rfl
      · simp only [name.symbolName, value.node]
      · simp only [List.length_cons, rest.length_eq]
    | function =>
      rcases twins with _ | ⟨params, _ | ⟨result, _ | ⟨_, rest⟩⟩⟩
      · rfl
      · rfl
      · simp only [params.names, result.node]
      · simp only [List.length_cons, rest.length_eq]
    | call =>
      cases twins with
      | nil => rfl
      | cons callee args => simp only [callee.symbolName, statements args]
    | vector =>
      rcases twins with _ | ⟨x, _ | ⟨y, _ | ⟨_, rest⟩⟩⟩
      · rfl
      · rfl
      · simp only [x.node, y.node]
      · simp only [List.length_cons, rest.length_eq]
    | symbol | number | string | attrs | attr | flag | params | edge => rfl

theorem attributeOfTree_node (twins : List.Forall₂ Twins cs cs') :
    Node.attributeOfTree (.node tag text cs') = Node.attributeOfTree (.node tag text cs) := by
  unfold Node.attributeOfTree
  cases Tag.ofName? tag with
  | none => rfl
  | some kind =>
    cases kind with
    | attr =>
      rcases twins with _ | ⟨key, _ | ⟨value, _ | ⟨_, rest⟩⟩⟩
      · rfl
      · rfl
      · simp only [key.symbolName, value.node]
      · simp only [List.length_cons, rest.length_eq]
    | flag =>
      rcases twins with _ | ⟨key, _ | ⟨_, rest⟩⟩
      · rfl
      · simp only [key.symbolName]
      · simp only [List.length_cons, rest.length_eq]
    | _ => rfl

/-- Twins may stand for each other below any node. -/
theorem of_children (twins : List.Forall₂ Twins cs cs') :
    Twins (.node tag text cs) (.node tag text cs') where
  tag := rfl
  text := rfl
  node := ofTree_node twins
  names := by
    unfold parameterNames
    rw [Tree.children, Tree.children, mapM_eq symbolName twins]
    rfl
  attrs := by
    rw [Node.attributeListOfTree, Node.attributeListOfTree, attributesOfTrees_eq,
      attributesOfTrees_eq, mapM_eq attr twins]
  attr := attributeOfTree_node twins

theorem modify {i : Nat} {f : Tree → Tree} (twin : ∀ c, cs[i]? = some c → Twins c (f c)) :
    List.Forall₂ Twins cs (cs.modify i f) := by
  induction cs generalizing i with
  | nil =>
    rw [List.modify_nil]
    exact .nil
  | cons c cs ih =>
    cases i with
    | zero => exact .cons (twin c rfl) (List.forall₂_same.mpr fun d _ => refl d)
    | succ i => exact .cons (refl c) (ih fun d held => twin d held)

/-- What is overlooked may be changed in any way. -/
theorem alter {path : List Nat} (overlooks : t.Overlooks path) (f : Tree → Tree) :
    Twins t (t.alter f path) := by
  induction path generalizing t with
  | nil => exact absurd overlooks not_overlooks_nil
  | cons i path ih =>
    obtain ⟨tag, text, children⟩ := t
    rcases overlooks_cons.mp overlooks with blind | ⟨child, held, below⟩
    · exact of_blind blind
    · refine of_children (modify fun c there => ?_)
      cases held.symm.trans there
      exact ih below

end Syntax.Tree.Twins

/-! ## Tags that are not known -/

section Unknown

open RigidScene.Syntax.Tree (retag)

variable {t s : Tree} {path : List Nat}

namespace Syntax.Tree

theorem at?_alter (f : Tree → Tree) : (t.alter f path).at? path = (t.at? path).map f := by
  induction path generalizing t with
  | nil => rfl
  | cons i path ih =>
    obtain ⟨tag, text, children⟩ := t
    rw [alter, at?, at?, Tree.children, Tree.children, List.getElem?_modify]
    cases children[i]? with
    | none => rfl
    | some child => simpa using ih

/-- A change at a place leaves what stands above it. -/
theorem overlooks_alter (f : Tree → Tree) :
    (t.alter f path).Overlooks path ↔ t.Overlooks path := by
  induction path generalizing t with
  | nil => exact iff_of_false not_overlooks_nil not_overlooks_nil
  | cons i path ih =>
    obtain ⟨tag, text, children⟩ := t
    rw [alter, overlooks_cons, overlooks_cons]
    refine or_congr Iff.rfl ?_
    rw [Tree.children, Tree.children, List.getElem?_modify]
    cases children[i]? with
    | none => simp
    | some child => simpa using ih

theorem tag_retag (tag : String) (t : Tree) : (t.retag tag).tag = tag := by
  cases t
  rfl

end Syntax.Tree

/-- A tree that is accepted, and a place in it.  If the place is not below a token or the mark of an
edge, the tag there is known, and with a tag that is not known the tree would be refused.  If it is,
anything at all may stand there: the program is the same. -/
theorem unknownTag_refused_iff {program : Node} (accepted : Node.ofTree t = .ok program)
    (there : t.at? path = some s) :
    (¬ t.Overlooks path → (Tag.ofName? s.tag).isSome = true) ∧
    (∀ tag, Tag.ofName? tag = none →
      ((∃ e, Node.ofTree (t.alter (retag tag) path) = .error e) ↔ ¬ t.Overlooks path)) ∧
    (t.Overlooks path → ∀ f, Node.ofTree (t.alter f path) = .ok program) := by
  have dropped (overlooks : t.Overlooks path) (f : Tree → Tree) :
      Node.ofTree (t.alter f path) = .ok program :=
    (Tree.Twins.alter overlooks f).node.trans accepted
  have takes : Place.expression.Takes t := ⟨program, accepted⟩
  refine ⟨takes.known_at there, fun tag unknown => ⟨?_, fun looks => ?_⟩, dropped⟩
  · rintro ⟨e, refused⟩ overlooks
    rw [dropped overlooks] at refused
    cases refused
  · cases read : Node.ofTree (t.alter (retag tag) path) with
    | error e => exact ⟨e, rfl⟩
    | ok other =>
      have changed : (t.alter (retag tag) path).at? path = some (s.retag tag) := by
        rw [Tree.at?_alter, there, Option.map_some]
      have takes : Place.expression.Takes (t.alter (retag tag) path) := ⟨other, read⟩
      have known := takes.known_at changed (mt (Tree.overlooks_alter _).mp looks)
      rw [Tree.tag_retag, unknown] at known
      cases known

/-- An edge with a length, and a list of attributes below the mark of its kind. -/
def listBelowMark : Tree :=
  .branch "constraint" [.symbol ['a'], .branch "rigid" [.branch "attrs" []], .symbol ['b'],
    .branch "attrs" [.branch "attr" [.symbol "length".toList, .number ['4']]]]

/-- Its length is looked at: with a tag there that is not known it would be refused. -/
theorem listBelowMark_refused : ¬ listBelowMark.Overlooks [3, 0, 1] ∧
    ∃ e, Node.ofTree (listBelowMark.alter (retag "while") [3, 0, 1]) = .error e := by
  have looks : ¬ listBelowMark.Overlooks [3, 0, 1] := by decide
  obtain ⟨program, accepted⟩ : ∃ program, Node.ofTree listBelowMark = .ok program := ⟨_, rfl⟩
  have there : listBelowMark.at? [3, 0, 1] = some (.number ['4']) := rfl
  have refused := (unknownTag_refused_iff accepted there).2.1 "while" rfl
  exact ⟨looks, refused.mpr looks⟩

/-- The list below the mark is dropped, also with a tag there that is not known. -/
theorem listBelowMark_dropped : ∃ program, Node.ofTree listBelowMark = .ok program ∧
    listBelowMark.at? [1, 0] = some (.branch "attrs" []) ∧ Tag.ofName? "while" = none ∧
    Node.ofTree (listBelowMark.alter (retag "while") [1, 0]) = .ok program :=
  ⟨_, rfl, rfl, rfl, rfl⟩

end Unknown

end RigidScene
