import RigidScene.Proofs.Program.Acceptance

/-!
Trees that are spelled differently.

A tree may write a function with either of two tags, a name with or without a colon before it, a
string with or without quotes around it, the kind of an edge as a mark or by name, the shape of a
body as a string or by name, and the attributes of a body one by one or in lists.  `Respelled`
closes these choices under every place of a tree in which they are read; trees that it relates are
read alike (`ofTree_respelled`).  What a child is read as depends on where it stands, so both the
relation and the readings that agree are indexed by places.
-/

namespace RigidScene

open RigidScene.Syntax (Tree)
open RigidScene.Program

/-! ## Spellings -/

/-- The text of a symbol spells the name: with a colon before it, or as it is. -/
inductive SymbolSpells : String → String → Prop where
  | bare {name : String} (plain : name.toList.head? ≠ some ':') : SymbolSpells name name
  | colon (name : String) : SymbolSpells (":" ++ name) name

/-- The text of a string spells the content: in quotes, or as it is. -/
inductive StringSpells : String → String → Prop where
  | bare {content : String} (plain : ∀ inner, content ≠ "\"" ++ inner ++ "\"") :
    StringSpells content content
  | quoted (content : String) : StringSpells ("\"" ++ content ++ "\"") content

/-- The place of an item of a body. -/
def itemPlace (t : Tree) : Place :=
  match Tag.ofName? t.tag with
  | some .attr | some .flag => .attributeItem
  | some .attrs => .attributeList
  | _ => .expression

/-- The place in which a node with the tag has its child with the index, if it reads it at all. -/
def childPlace : Place → Option Tag → Nat → Tree → Option Place
  | .expression, some .composite, _, _ => some .expression
  | .expression, some .body, 0, _ => some .bodyShape
  | .expression, some .body, _ + 1, child => some (itemPlace child)
  | .expression, some .constraint, 0, _ => some .expression
  | .expression, some .constraint, 1, _ => some .edgeKind
  | .expression, some .constraint, 2, _ => some .expression
  | .expression, some .constraint, 3, _ => some .attributeList
  | .expression, some .scope, 0, _ => some .expression
  | .expression, some .scope, 1, _ => some .attributeList
  | .expression, some .label, 0, _ => some .name
  | .expression, some .label, 1, _ => some .expression
  | .expression, some .function, 0, _ => some .parameterList
  | .expression, some .function, 1, _ => some .expression
  | .expression, some .call, 0, _ => some .name
  | .expression, some .call, _ + 1, _ => some .expression
  | .expression, some .vector, 0, _ => some .expression
  | .expression, some .vector, 1, _ => some .expression
  | .attributeList, some .attrs, _, _ => some .attributeItem
  | .attributeItem, some .attr, 0, _ => some .name
  | .attributeItem, some .attr, 1, _ => some .expression
  | .attributeItem, some .flag, 0, _ => some .name
  | .parameterList, some .params, _, _ => some .name
  | _, _, _, _ => none

/-- In this place, the second tree is the first one with any number of its parts spelled in another
way. -/
inductive Respelled : Place → Tree → Tree → Prop where
  | refl (place : Place) (t : Tree) : Respelled place t t
  | symm {place : Place} {t t' : Tree} (related : Respelled place t t') : Respelled place t' t
  | trans {place : Place} {t t' t'' : Tree} (first : Respelled place t t')
    (second : Respelled place t' t'') : Respelled place t t''
  /-- A function has two tags. -/
  | function (text : Option String) (children : List Tree) :
    Respelled .expression (.node "fn" text children) (.node "lambda" text children)
  | symbol {place : Place} {x y name : String} (children : List Tree)
    (reads : place ∈ [Place.name, .expression, .bodyShape, .edgeKind]) (one : SymbolSpells x name)
    (other : SymbolSpells y name) :
    Respelled place (.node "symbol" (some x) children) (.node "symbol" (some y) children)
  | string {place : Place} {x y content : String} (children : List Tree)
    (reads : place ∈ [Place.expression, .bodyShape]) (one : StringSpells x content)
    (other : StringSpells y content) :
    Respelled place (.node "string" (some x) children) (.node "string" (some y) children)
  /-- The mark of an edge may be named. -/
  | edgeKind (kind : EdgeKind) (text : Option String) (children : List Tree) :
    Respelled .edgeKind (.node "symbol" (some kind.name) children) (.node kind.name text [])
  /-- The shape of a body may be named by a string. -/
  | bodyShape {x y name : String} (children children' : List Tree) (one : StringSpells x name)
    (other : SymbolSpells y name) :
    Respelled .bodyShape (.node "string" (some x) children) (.node "symbol" (some y) children')
  /-- Attributes of a body that stand side by side may be listed. -/
  | attributes (text text' : Option String) (shape : Tree) (front run back : List Tree)
    (each : ∀ t ∈ run, itemPlace t = .attributeItem) :
    Respelled .expression (.node "body" text (shape :: (front ++ run ++ back)))
      (.node "body" text (shape :: (front ++ .node "attrs" text' run :: back)))
  /-- A child may be respelled, as the place in which it is read allows. -/
  | child {place inner : Place} {tag : String} {text : Option String} (front back : List Tree)
    {t t' : Tree} (stands : childPlace place (Tag.ofName? tag) front.length t = some inner)
    (related : Respelled inner t t') :
    Respelled place (.node tag text (front ++ t :: back)) (.node tag text (front ++ t' :: back))

/-! ## Names and contents -/

theorem bareName_eq {x name : String} (spells : SymbolSpells x name) : bareName x = name := by
  cases spells with
  | bare plain =>
    unfold bareName
    split
    · rename_i begins
      rw [begins] at plain
      exact absurd rfl plain
    · rfl
  | colon =>
    have begins : (":" ++ name).toList = ':' :: name.toList := by simp
    rw [bareName, begins]
    exact String.ofList_toList

theorem unquoted_eq {x content : String} (spells : StringSpells x content) :
    unquoted x = content := by
  cases spells with
  | bare plain =>
    unfold unquoted
    split
    · rename_i rest begins
      split
      · rename_i last
        obtain ⟨inner, rfl⟩ := List.getLast?_eq_some_iff.mp last
        refine absurd ?_ (plain (String.ofList inner))
        apply String.toList_injective
        rw [begins]
        simp
      · rfl
    · rfl
  | quoted =>
    have begins : ("\"" ++ content ++ "\"").toList = '"' :: (content.toList ++ ['"']) := by simp
    rw [unquoted, begins]
    simp

/-! ## Readings that agree -/

/-- Either both answer the same, or both fail. -/
def SameAnswer {α : Type} (x y : Except TreeError α) : Prop :=
  ∀ a, x = .ok a ↔ y = .ok a

namespace SameAnswer

variable {α β : Type} {x y z : Except TreeError α} {f g : α → Except TreeError β}

theorem refl (x : Except TreeError α) : SameAnswer x x :=
  fun _ => Iff.rfl

theorem of_eq (same : x = y) : SameAnswer x y :=
  same ▸ refl x

theorem symm (same : SameAnswer x y) : SameAnswer y x :=
  fun a => (same a).symm

theorem trans (first : SameAnswer x y) (second : SameAnswer y z) : SameAnswer x z :=
  fun a => (first a).trans (second a)

theorem bind (first : SameAnswer x y) (rest : ∀ a, SameAnswer (f a) (g a)) :
    SameAnswer (x >>= f) (y >>= g) := by
  intro b
  simp only [Outcome.chain_ok_iff, first _, rest _ b]

/-- Both fail, each for a reason of its own. -/
theorem refused {e e' : TreeError} : SameAnswer (.error e : Except TreeError α) (.error e') :=
  fun _ => ⟨nofun, nofun⟩

theorem map (same : SameAnswer x y) (f : α → β) : SameAnswer (f <$> x) (f <$> y) := by
  intro b
  simp only [Outcome.mapped_ok_iff, same _]

end SameAnswer

/-- In this place, the two trees are read alike. -/
def Place.Same : Place → Tree → Tree → Prop
  | bodyShape, t, t' => SameAnswer (shapeName t) (shapeName t')
  | edgeKind, t, t' => SameAnswer (Program.edgeKind t) (Program.edgeKind t')
  | attributeList, t, t' => SameAnswer (Node.attributeListOfTree t) (Node.attributeListOfTree t')
  | attributeItem, t, t' => SameAnswer (Node.attributeOfTree t) (Node.attributeOfTree t')
  | parameterList, t, t' => SameAnswer (parameterNames t) (parameterNames t')
  | name, t, t' => SameAnswer (symbolName t) (symbolName t')
  | expression, t, t' => SameAnswer (Node.ofTree t) (Node.ofTree t')

/-- The two trees are read alike in this place, and are the same sort of item in a body. -/
structure ReadAlike (place : Place) (t t' : Tree) : Prop where
  item : itemPlace t' = itemPlace t
  read : place.Same t t'

namespace ReadAlike

variable {place : Place} {t t' t'' : Tree}

theorem refl (place : Place) (t : Tree) : ReadAlike place t t :=
  ⟨rfl, by cases place <;> exact .refl _⟩

theorem symm (alike : ReadAlike place t t') : ReadAlike place t' t :=
  ⟨alike.item.symm, by cases place <;> exact SameAnswer.symm alike.read⟩

theorem trans (first : ReadAlike place t t') (second : ReadAlike place t' t'') :
    ReadAlike place t t'' :=
  ⟨second.item.trans first.item, by cases place <;> exact SameAnswer.trans first.read second.read⟩

end ReadAlike

/-! ## Children that are read alike -/

/-- From the index on, children are read alike in the places where they stand. -/
inductive Along (place : Nat → Tree → Option Place) : Nat → List Tree → List Tree → Prop where
  | nil {i : Nat} : Along place i [] []
  | cons {i : Nat} {t t' : Tree} {ts ts' : List Tree}
    (first : ∀ inner, place i t = some inner → ReadAlike inner t t')
    (others : Along place (i + 1) ts ts') : Along place i (t :: ts) (t' :: ts')

namespace Along

variable {place : Nat → Tree → Option Place} {i : Nat} {t t' : Tree} {ts ts' : List Tree}

theorem refl (place : Nat → Tree → Option Place) (i : Nat) (ts : List Tree) :
    Along place i ts ts := by
  induction ts generalizing i with
  | nil => exact .nil
  | cons t ts ih => exact .cons (fun inner _ => .refl inner t) (ih (i + 1))

/-- One child is read alike, and the others are the same. -/
theorem single {inner : Place} (front back : List Tree)
    (stands : place (i + front.length) t = some inner) (alike : ReadAlike inner t t') :
    Along place i (front ++ t :: back) (front ++ t' :: back) := by
  induction front generalizing i with
  | nil =>
    refine .cons (fun other there => ?_) (refl place (i + 1) back)
    cases stands.symm.trans there
    exact alike
  | cons s front ih =>
    refine .cons (fun inner _ => .refl inner s) (ih ?_)
    rw [← stands, List.length_cons]
    congr 1
    omega

/-- Lists of children that all stand in one place. -/
theorem mapM {α : Type} {f : Tree → Except TreeError α} {inner : Place}
    (along : Along place i ts ts') (each : ∀ j t, i ≤ j → place j t = some inner)
    (alike : ∀ t t', ReadAlike inner t t' → SameAnswer (f t) (f t')) :
    SameAnswer (ts.mapM f) (ts'.mapM f) := by
  induction along with
  | nil => exact .refl _
  | @cons i t t' ts ts' first others ih =>
    rw [List.mapM_cons, List.mapM_cons]
    have here := alike t t' (first inner (each i t (Nat.le_refl i)))
    have later := ih fun j t le => each j t (Nat.le_of_succ_le le)
    exact here.bind fun a => later.bind fun as => .refl _

end Along

/-! ## Items of a body -/

/-- What one item adds to the arguments and the attributes of a body. -/
def bodyItem (t : Tree) : Except TreeError (List Node × List (String × Node)) :=
  match itemPlace t with
  | .attributeItem => (fun attr => ([], [attr])) <$> Node.attributeOfTree t
  | .attributeList => (fun attrs => ([], attrs)) <$> Node.attributeListOfTree t
  | _ => (fun arg => ([arg], [])) <$> Node.ofTree t

theorem bodyItemsOfTrees_cons (t : Tree) (ts : List Tree) :
    Node.bodyItemsOfTrees (t :: ts) = do
      let first ← bodyItem t
      let others ← Node.bodyItemsOfTrees ts
      return (first.1 ++ others.1, first.2 ++ others.2) := by
  rw [Node.bodyItemsOfTrees]
  unfold bodyItem itemPlace
  cases Tag.ofName? t.tag with
  | none => cases Node.ofTree t <;> rfl
  | some kind =>
    cases kind with
    | attr | flag => cases Node.attributeOfTree t <;> rfl
    | attrs => cases Node.attributeListOfTree t <;> rfl
    | _ => cases Node.ofTree t <;> rfl

theorem bodyItemsOfTrees_append (ts us : List Tree) :
    Node.bodyItemsOfTrees (ts ++ us) = do
      let first ← Node.bodyItemsOfTrees ts
      let others ← Node.bodyItemsOfTrees us
      return (first.1 ++ others.1, first.2 ++ others.2) := by
  induction ts with
  | nil =>
    rw [List.nil_append, Node.bodyItemsOfTrees]
    exact (bind_pure _).symm
  | cons t ts ih =>
    simp only [List.cons_append, bodyItemsOfTrees_cons, ih, bind_assoc, pure_bind,
      List.append_assoc]

/-- Attributes one by one are what the list of them is. -/
theorem bodyItemsOfTrees_attributes {run : List Tree}
    (each : ∀ t ∈ run, itemPlace t = .attributeItem) (text : Option String) :
    Node.bodyItemsOfTrees run = bodyItem (.node "attrs" text run) := by
  have listed (run : List Tree) : bodyItem (.node "attrs" text run) =
      (fun attrs => ([], attrs)) <$> Node.attributesOfTrees run := rfl
  rw [listed]
  induction run with
  | nil => rfl
  | cons t run ih =>
    obtain ⟨first, others⟩ := List.forall_mem_cons.mp each
    rw [bodyItemsOfTrees_cons, Node.attributesOfTrees, ih others, bodyItem, first]
    simp only [map_eq_pure_bind, bind_assoc, pure_bind, List.nil_append, List.singleton_append]

theorem itemPlace_cases (t : Tree) :
    itemPlace t = .attributeItem ∨ itemPlace t = .attributeList ∨ itemPlace t = .expression := by
  unfold itemPlace
  split
  · exact .inl rfl
  · exact .inl rfl
  · exact .inr (.inl rfl)
  · exact .inr (.inr rfl)

theorem ReadAlike.bodyItem {t t' : Tree} (alike : ReadAlike (itemPlace t) t t') :
    SameAnswer (bodyItem t) (bodyItem t') := by
  obtain ⟨item, read⟩ := alike
  unfold RigidScene.bodyItem
  rw [item]
  rcases itemPlace_cases t with place | place | place <;>
  · rw [place] at read ⊢
    exact SameAnswer.map read _

namespace Along

variable {place : Nat → Tree → Option Place} {i : Nat} {ts ts' : List Tree}

theorem bodyItems (along : Along place i ts ts')
    (each : ∀ j t, i ≤ j → place j t = some (itemPlace t)) :
    SameAnswer (Node.bodyItemsOfTrees ts) (Node.bodyItemsOfTrees ts') := by
  induction along with
  | nil => exact .refl _
  | @cons i t t' ts ts' first others ih =>
    have here : SameAnswer (bodyItem t) (bodyItem t') :=
      (first _ (each i t (Nat.le_refl i))).bodyItem
    have later := ih fun j t le => each j t (Nat.le_of_succ_le le)
    rw [bodyItemsOfTrees_cons, bodyItemsOfTrees_cons]
    exact here.bind fun _ => later.bind fun _ => .refl _

end Along

/-! ## Nodes of children that are read alike -/

section Nodes

variable {tag : String} {text : Option String} {cs cs' : List Tree}

theorem ofTrees_along {place : Nat → Tree → Option Place} {i : Nat} (along : Along place i cs cs')
    (each : ∀ j t, i ≤ j → place j t = some .expression) :
    SameAnswer (Node.ofTrees cs) (Node.ofTrees cs') := by
  rw [ofTrees_eq, ofTrees_eq]
  exact along.mapM each fun _ _ alike => alike.read

theorem ofTree_along (along : Along (childPlace .expression (Tag.ofName? tag)) 0 cs cs') :
    SameAnswer (Node.ofTree (.node tag text cs)) (Node.ofTree (.node tag text cs')) := by
  unfold Node.ofTree
  cases known : Tag.ofName? tag with
  | none => exact .refl _
  | some kind =>
    rw [known] at along
    cases kind with
    | composite => exact (ofTrees_along along fun _ _ _ => rfl).map Node.composite
    | body =>
      cases along with
      | nil => exact .refl _
      | cons shape items =>
        have named := (shape .bodyShape rfl).read
        have sorted := items.bodyItems fun j _ le => by
          obtain ⟨j, rfl⟩ := Nat.exists_eq_add_of_le' le
          rfl
        exact SameAnswer.bind named fun _ => sorted.bind fun _ => .refl _
    | constraint =>
      rcases along with _ | ⟨source, _ | ⟨kind, _ | ⟨target, _ | ⟨attrs, _ | _⟩⟩⟩⟩
      · exact .refl _
      · exact .refl _
      · exact .refl _
      · exact SameAnswer.bind (source .expression rfl).read fun _ =>
          SameAnswer.bind (kind .edgeKind rfl).read fun _ =>
          SameAnswer.bind (target .expression rfl).read fun _ => .refl _
      · exact SameAnswer.bind (source .expression rfl).read fun _ =>
          SameAnswer.bind (kind .edgeKind rfl).read fun _ =>
          SameAnswer.bind (target .expression rfl).read fun _ =>
          SameAnswer.bind (attrs .attributeList rfl).read fun _ => .refl _
      · exact .refused
    | scope =>
      rcases along with _ | ⟨block, _ | ⟨attrs, _ | _⟩⟩
      · exact .refl _
      · exact SameAnswer.bind (block .expression rfl).read fun _ => .refl _
      · exact SameAnswer.bind (block .expression rfl).read fun _ =>
          SameAnswer.bind (attrs .attributeList rfl).read fun _ => .refl _
      · exact .refused
    | label =>
      rcases along with _ | ⟨name, _ | ⟨value, _ | _⟩⟩
      · exact .refl _
      · exact .refl _
      · exact SameAnswer.bind (name .name rfl).read fun _ =>
          SameAnswer.bind (value .expression rfl).read fun _ => .refl _
      · exact .refused
    | function =>
      rcases along with _ | ⟨params, _ | ⟨result, _ | _⟩⟩
      · exact .refl _
      · exact .refl _
      · exact SameAnswer.bind (params .parameterList rfl).read fun _ =>
          SameAnswer.bind (result .expression rfl).read fun _ => .refl _
      · exact .refused
    | call =>
      cases along with
      | nil => exact .refl _
      | cons callee args =>
        have listed := ofTrees_along args fun j _ le => by
          obtain ⟨j, rfl⟩ := Nat.exists_eq_add_of_le' le
          rfl
        exact SameAnswer.bind (callee .name rfl).read fun _ => listed.bind fun _ => .refl _
    | vector =>
      rcases along with _ | ⟨x, _ | ⟨y, _ | _⟩⟩
      · exact .refl _
      · exact .refl _
      · exact SameAnswer.bind (x .expression rfl).read fun _ =>
          SameAnswer.bind (y .expression rfl).read fun _ => .refl _
      · exact .refused
    | symbol | number | string | attrs | attr | flag | params | edge => exact .refl _

theorem attributeOfTree_along
    (along : Along (childPlace .attributeItem (Tag.ofName? tag)) 0 cs cs') :
    SameAnswer (Node.attributeOfTree (.node tag text cs))
      (Node.attributeOfTree (.node tag text cs')) := by
  unfold Node.attributeOfTree
  cases known : Tag.ofName? tag with
  | none => exact .refl _
  | some kind =>
    rw [known] at along
    cases kind with
    | attr =>
      rcases along with _ | ⟨key, _ | ⟨value, _ | _⟩⟩
      · exact .refl _
      · exact .refl _
      · exact SameAnswer.bind (key .name rfl).read fun _ =>
          SameAnswer.bind (value .expression rfl).read fun _ => .refl _
      · exact .refused
    | flag =>
      rcases along with _ | ⟨key, _ | _⟩
      · exact .refl _
      · exact SameAnswer.bind (key .name rfl).read fun _ => .refl _
      · exact .refused
    | _ => exact .refl _

/-- A node is read alike if its children are, each in the place where it stands. -/
theorem ReadAlike.of_children {place : Place}
    (along : Along (childPlace place (Tag.ofName? tag)) 0 cs cs') :
    ReadAlike place (.node tag text cs) (.node tag text cs') := by
  refine ⟨rfl, ?_⟩
  cases place with
  | bodyShape | edgeKind | name => exact SameAnswer.refl _
  | expression => exact ofTree_along along
  | attributeItem => exact attributeOfTree_along along
  | attributeList =>
    show SameAnswer (Node.attributeListOfTree _) (Node.attributeListOfTree _)
    unfold Node.attributeListOfTree
    split
    · rename_i list
      subst list
      rw [attributesOfTrees_eq, attributesOfTrees_eq]
      exact along.mapM (fun _ _ _ => rfl) fun _ _ alike => alike.read
    · exact .refl _
  | parameterList =>
    show SameAnswer (if tag = "params" then cs.mapM symbolName else _)
      (if tag = "params" then cs'.mapM symbolName else _)
    split
    · rename_i list
      subst list
      exact along.mapM (fun _ _ _ => rfl) fun _ _ alike => alike.read
    · exact .refl _

end Nodes

/-! ## Respelled trees -/

theorem edgeKind_symbol {x : String} {children : List Tree} {kind : EdgeKind} :
    edgeKind (.node "symbol" (some x) children) = .ok kind ↔
      EdgeKind.ofName? (bareName x) = some kind := by
  have tag : Tag.ofName? "symbol" = some .symbol := rfl
  simp only [edgeKind, symbolText, tokenText, Tree.tag, Tree.text, tag, Functor.map, Except.map,
    bind, Except.bind]
  cases EdgeKind.ofName? (bareName x) <;> simp

namespace ReadAlike

variable {place : Place} {x y name : String}

theorem function (text : Option String) (children : List Tree) :
    ReadAlike .expression (.node "fn" text children) (.node "lambda" text children) := by
  refine ⟨rfl, ?_⟩
  match children with
  | [] | [_] => exact SameAnswer.refused
  | [_, _] => exact SameAnswer.refl _
  | _ :: _ :: _ :: _ => exact SameAnswer.refused

theorem symbol (children : List Tree)
    (reads : place ∈ [Place.name, .expression, .bodyShape, .edgeKind]) (one : SymbolSpells x name)
    (other : SymbolSpells y name) :
    ReadAlike place (.node "symbol" (some x) children) (.node "symbol" (some y) children) := by
  have same : bareName x = bareName y := (bareName_eq one).trans (bareName_eq other).symm
  refine ⟨rfl, ?_⟩
  cases place with
  | name | bodyShape => exact SameAnswer.of_eq (congrArg Except.ok same)
  | expression => exact SameAnswer.of_eq (congrArg (Except.ok ∘ Node.symbol) same)
  | edgeKind =>
    intro kind
    rw [edgeKind_symbol, edgeKind_symbol, same]
  | attributeList | attributeItem | parameterList => exact absurd reads (by decide)

theorem string (children : List Tree) (reads : place ∈ [Place.expression, .bodyShape])
    (one : StringSpells x name) (other : StringSpells y name) :
    ReadAlike place (.node "string" (some x) children) (.node "string" (some y) children) := by
  have same : unquoted x = unquoted y := (unquoted_eq one).trans (unquoted_eq other).symm
  refine ⟨rfl, ?_⟩
  cases place with
  | bodyShape => exact SameAnswer.of_eq (congrArg Except.ok same)
  | expression => exact SameAnswer.of_eq (congrArg (Except.ok ∘ Node.string) same)
  | name | edgeKind | attributeList | attributeItem | parameterList =>
    exact absurd reads (by decide)

theorem edgeKind (kind : EdgeKind) (text : Option String) (children : List Tree) :
    ReadAlike .edgeKind (.node "symbol" (some kind.name) children) (.node kind.name text []) := by
  refine ⟨by cases kind <;> rfl, fun other => ?_⟩
  cases kind <;> exact Iff.rfl

theorem bodyShape (children children' : List Tree) (one : StringSpells x name)
    (other : SymbolSpells y name) :
    ReadAlike .bodyShape (.node "string" (some x) children)
      (.node "symbol" (some y) children') :=
  ⟨rfl, SameAnswer.of_eq (congrArg Except.ok ((unquoted_eq one).trans (bareName_eq other).symm))⟩

theorem attributes (text text' : Option String) (shape : Tree) (front : List Tree)
    {run : List Tree} (back : List Tree)
    (each : ∀ t ∈ run, itemPlace t = .attributeItem) :
    ReadAlike .expression (.node "body" text (shape :: (front ++ run ++ back)))
      (.node "body" text (shape :: (front ++ .node "attrs" text' run :: back))) := by
  have same : Node.bodyItemsOfTrees (front ++ run ++ back) =
      Node.bodyItemsOfTrees (front ++ .node "attrs" text' run :: back) := by
    rw [List.append_assoc]
    simp only [bodyItemsOfTrees_append front, bodyItemsOfTrees_append run, bodyItemsOfTrees_cons,
      bodyItemsOfTrees_attributes each text']
  refine ⟨rfl, SameAnswer.of_eq ?_⟩
  show (do
    let shape ← shapeName shape
    let sorted ← Node.bodyItemsOfTrees (front ++ run ++ back)
    return Node.body shape sorted.1 sorted.2) = _
  rw [same]
  rfl

end ReadAlike

theorem Respelled.readAlike {place : Place} {t t' : Tree} (related : Respelled place t t') :
    ReadAlike place t t' := by
  induction related with
  | refl place t => exact .refl place t
  | symm _ ih => exact ih.symm
  | trans _ _ first second => exact first.trans second
  | function text children => exact .function text children
  | symbol children reads one other => exact .symbol children reads one other
  | string children reads one other => exact .string children reads one other
  | edgeKind kind text children => exact .edgeKind kind text children
  | bodyShape children children' one other => exact .bodyShape children children' one other
  | attributes text text' shape front run back each =>
    exact .attributes text text' shape front back each
  | child front back stands _ ih =>
    exact .of_children (.single front back (by rwa [Nat.zero_add]) ih)

/-- **How a tree is spelled does not matter.**  Of two trees that differ in their spelling alone,
both are programs or neither is, and if they are, it is the same program. -/
theorem ofTree_respelled {t t' : Tree} (related : Respelled .expression t t') (node : Node) :
    Node.ofTree t = .ok node ↔ Node.ofTree t' = .ok node :=
  related.readAlike.read node

/-- An edge from a body with a flag to a function, spelled as plainly as can be. -/
def plainEdge : Tree :=
  .node "constraint" none [
    .node "body" none [.node "symbol" (some "circle") [],
      .node "flag" none [.node "symbol" (some "static") []]],
    .node "symbol" (some "rigid") [],
    .node "fn" none [.node "params" none [], .node "string" (some "s") []]]

/-- The same edge, with every part of it spelled in the other way. -/
def ornateEdge : Tree :=
  .node "constraint" none [
    .node "body" none [.node "string" (some "\"circle\"") [],
      .node "attrs" none [.node "flag" none [.node "symbol" (some ":static") []]]],
    .node "rigid" none [],
    .node "lambda" none [.node "params" none [], .node "string" (some "\"s\"") []]]

theorem plainEdge_respelled : Respelled .expression plainEdge ornateEdge := by
  have shape : Respelled .bodyShape (.node "symbol" (some "circle") [])
      (.node "string" (some "\"circle\"") []) :=
    .symm (.bodyShape [] [] (.quoted "circle") (.bare (by decide)))
  have flag : Respelled .attributeItem (.node "flag" none [.node "symbol" (some "static") []])
      (.node "flag" none [.node "symbol" (some ":static") []]) :=
    .child [] [] rfl (.symbol [] (by decide) (.bare (by decide)) (.colon "static"))
  have body : Respelled .expression
      (.node "body" none [.node "symbol" (some "circle") [],
        .node "flag" none [.node "symbol" (some "static") []]])
      (.node "body" none [.node "string" (some "\"circle\"") [],
        .node "attrs" none [.node "flag" none [.node "symbol" (some ":static") []]]]) :=
    .trans (.child [] [_] rfl shape)
      (.trans (.child [_] [] rfl flag) (.attributes none none _ [] [_] [] (by decide)))
  have content : StringSpells "s" "s" := .bare fun inner same => by
    have same := congrArg String.toList same
    simp at same
  have function : Respelled .expression
      (.node "fn" none [.node "params" none [], .node "string" (some "s") []])
      (.node "lambda" none [.node "params" none [], .node "string" (some "\"s\"") []]) :=
    .trans (.child [_] [] rfl (.string [] (by decide) content (.quoted "s"))) (.function none _)
  exact .trans (.child [] [_, _] rfl body)
    (.trans (.child [_] [_] rfl (.edgeKind .rigid none [])) (.child [_, _] [] rfl function))

/-- Both trees are the program that the first one is. -/
theorem ornateEdge_is_plainEdge : Respelled .expression plainEdge ornateEdge ∧
    Node.ofTree ornateEdge = .ok (.constraint (.body "circle" [] [("static", .bool true)]) .rigid
      (.function [] (.string "s")) []) :=
  ⟨plainEdge_respelled, (ofTree_respelled plainEdge_respelled _).mp rfl⟩

end RigidScene
