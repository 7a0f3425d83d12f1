import RigidScene.Decimal.Text
import RigidScene.Program.Node
import RigidScene.Syntax.Tree
import RigidScene.Text.Alphabet

/-!
From tagged trees to programs.

`Node.ofTree` looks at nothing but the tree.  It accepts a tree when every node has a known tag, the
children that this tag asks for and, if it is a token, its text; otherwise it says what is wrong
with the first node that is not so, children taken from left to right.
-/

namespace RigidScene

open RigidScene.Syntax (Tree)

/-- The tags of a program's tree. -/
inductive Tag where
  | composite
  | body
  | constraint
  | scope
  | label
  | function
  | call
  | vector
  | symbol
  | number
  | string
  /-- A list of attributes. -/
  | attrs
  /-- An attribute with a value. -/
  | attr
  /-- An attribute without one. -/
  | flag
  | params
  | edge (kind : EdgeKind)
  deriving DecidableEq, Repr

/-- The tag a name stands for; functions have two. -/
def Tag.ofName? (name : String) : Option Tag :=
  match name with
  | "composite" => some composite
  | "body" => some body
  | "constraint" => some constraint
  | "scope" => some scope
  | "label" => some label
  | "fn" => some function
  | "lambda" => some function
  | "call" => some call
  | "vector" => some vector
  | "symbol" => some symbol
  | "number" => some number
  | "string" => some string
  | "attrs" => some attrs
  | "attr" => some attr
  | "flag" => some flag
  | "params" => some params
  | other => (EdgeKind.ofName? other).map edge

/-- How many children a node may have. -/
inductive ChildCount where
  | exactly (n : Nat)
  | either (n m : Nat)
  | atLeast (n : Nat)
  deriving DecidableEq, Repr

/-- The count in words. -/
def ChildCount.describe : ChildCount → String
  | exactly n => s!"{n}"
  | either n m => s!"{n} or {m}"
  | atLeast n => s!"at least {n}"

/-- The places of a tree where only some nodes may stand. -/
inductive Place where
  | bodyShape
  | edgeKind
  | attributeList
  | attributeItem
  | parameterList
  | name
  | expression
  deriving DecidableEq, Repr

/-- The place in words. -/
def Place.describe : Place → String
  | bodyShape => "body shape"
  | edgeKind => "constraint edge kind"
  | attributeList => "attribute list"
  | attributeItem => "attribute"
  | parameterList => "parameter list"
  | name => "name position"
  | expression => "expression position"

/-- Why a tree is no program. -/
inductive TreeError where
  | arity (tag : String) (expected : ChildCount) (got : Nat)
  | unknownTag (tag : String)
  | unexpected (found : String) (place : Place)
  | missingText (tag : String)
  | invalidNumber (text : String)
  deriving DecidableEq, Repr

/-- The error as one line of text. -/
def TreeError.message : TreeError → String
  | arity tag expected got =>
    s!"malformed `{tag}` node: expected {expected.describe} children, got {got}"
  | unknownTag tag => s!"unknown node tag `{tag}`"
  | unexpected found place => s!"unexpected `{found}` node in {place.describe}"
  | missingText tag => s!"`{tag}` node is missing its token text"
  | invalidNumber text => s!"invalid number literal `{text}`"

namespace Program

/-- The text that a token must have. -/
def tokenText (t : Tree) : Except TreeError String :=
  match t.text with
  | some text => .ok text
  | none => .error (.missingText t.tag)

/-- A name without the colon that may stand before it. -/
def bareName (text : String) : String :=
  match text.toList with
  | ':' :: rest => String.ofList rest
  | _ => text

/-- A text without the quotes that may stand around it. -/
def unquoted (text : String) : String :=
  match text.toList with
  | '"' :: rest => if rest.getLast? = some '"' then String.ofList rest.dropLast else text
  | _ => text

/-- The name that a symbol carries. -/
def symbolText (t : Tree) : Except TreeError String :=
  bareName <$> tokenText t

/-- The name in a place where only a symbol may stand. -/
def symbolName (t : Tree) : Except TreeError String :=
  if t.tag = "symbol" then symbolText t else .error (.unexpected t.tag .name)

/-- The names of a parameter list. -/
def parameterNames (t : Tree) : Except TreeError (List String) :=
  if t.tag = "params" then t.children.mapM symbolName
  else .error (.unexpected t.tag .parameterList)

/-- The shape of a body, named by a symbol or a string. -/
def shapeName (t : Tree) : Except TreeError String :=
  match Tag.ofName? t.tag with
  | some .symbol => symbolText t
  | some .string => unquoted <$> tokenText t
  | _ => .error (.unexpected t.tag .bodyShape)

/-- The kind of an edge, given by a tag or named by a symbol. -/
def edgeKind (t : Tree) : Except TreeError EdgeKind :=
  let unknown := TreeError.unexpected (t.text.getD t.tag) .edgeKind
  match Tag.ofName? t.tag with
  | some (.edge kind) => .ok kind
  | some .symbol => do
    let name ← symbolText t
    match EdgeKind.ofName? name with
    | some kind => .ok kind
    | none => .error unknown
  | _ => .error unknown

/-- The number that a token spells, with blanks around it allowed. -/
def numberValue (t : Tree) : Except TreeError Float := do
  let text ← tokenText t
  match Decimal.read? (Text.trimBlanks text.toList) with
  | some value => .ok value
  | none => .error (.invalidNumber text)

end Program

open Program

mutual

/-- The program that a tree spells. -/
def Node.ofTree : Tree → Except TreeError Node
  | .node tag text children =>
    match Tag.ofName? tag with
    | some .composite => Node.composite <$> Node.ofTrees children
    | some .body =>
      match children with
      | [] => .error (.arity tag (.atLeast 1) 0)
      | shape :: items => do
        let shape ← shapeName shape
        let (args, attrs) ← Node.bodyItemsOfTrees items
        return .body shape args attrs
    | some .constraint =>
      match children with
      | [source, kind, target] => do
        let source ← Node.ofTree source
        let kind ← edgeKind kind
        let target ← Node.ofTree target
        return .constraint source kind target []
      | [source, kind, target, attrs] => do
        let source ← Node.ofTree source
        let kind ← edgeKind kind
        let target ← Node.ofTree target
        let attrs ← Node.attributeListOfTree attrs
        return .constraint source kind target attrs
      | _ => .error (.arity tag (.either 3 4) children.length)
    | some .scope =>
      match children with
      | [block] => do
        let block ← Node.ofTree block
        return .scope block []
      | [block, attrs] => do
        let block ← Node.ofTree block
        let attrs ← Node.attributeListOfTree attrs
        return .scope block attrs
      | _ => .error (.arity tag (.either 1 2) children.length)
    | some .label =>
      match children with
      | [name, value] => do
        let name ← symbolName name
        let value ← Node.ofTree value
        return .label name value
      | _ => .error (.arity tag (.exactly 2) children.length)
    | some .function =>
      match children with
      | [params, result] => do
        let params ← parameterNames params
        let result ← Node.ofTree result
        return .function params result
      | _ => .error (.arity tag (.exactly 2) children.length)
    | some .call =>
      match children with
      | [] => .error (.arity tag (.atLeast 1) 0)
      | callee :: args => do
        let callee ← symbolName callee
        let args ← Node.ofTrees args
        return .call callee args
    | some .vector =>
      match children with
      | [x, y] => do
        let x ← Node.ofTree x
        let y ← Node.ofTree y
        return .vector x y
      | _ => .error (.arity tag (.exactly 2) children.length)
    | some .symbol => Node.symbol <$> symbolText (.node tag text children)
    | some .number => Node.number <$> numberValue (.node tag text children)
    | some .string => (Node.string ∘ unquoted) <$> tokenText (.node tag text children)
    | some _ => .error (.unexpected tag .expression)
    | none => .error (.unknownTag tag)

/-- The programs of a list of trees. -/
def Node.ofTrees : List Tree → Except TreeError (List Node)
  | [] => .ok []
  | t :: rest => do
    let node ← Node.ofTree t
    let nodes ← Node.ofTrees rest
    return node :: nodes

/-- The arguments and the attributes of a body, in any mixture. -/
def Node.bodyItemsOfTrees : List Tree → Except TreeError (List Node × List (String × Node))
  | [] => .ok ([], [])
  | t :: rest =>
    match Tag.ofName? t.tag with
    | some .attr | some .flag => do
      let attr ← Node.attributeOfTree t
      let (args, attrs) ← Node.bodyItemsOfTrees rest
      return (args, attr :: attrs)
    | some .attrs => do
      let listed ← Node.attributeListOfTree t
      let (args, attrs) ← Node.bodyItemsOfTrees rest
      return (args, listed ++ attrs)
    | _ => do
      let arg ← Node.ofTree t
      let (args, attrs) ← Node.bodyItemsOfTrees rest
      return (arg :: args, attrs)

/-- The attributes under one tag. -/
def Node.attributeListOfTree : Tree → Except TreeError (List (String × Node))
  | .node tag _ children =>
    if tag = "attrs" then Node.attributesOfTrees children
    else .error (.unexpected tag .attributeList)

/-- The attributes of a list of trees. -/
def Node.attributesOfTrees : List Tree → Except TreeError (List (String × Node))
  | [] => .ok []
  | t :: rest => do
    let attr ← Node.attributeOfTree t
    let attrs ← Node.attributesOfTrees rest
    return attr :: attrs

/-- One attribute. -/
def Node.attributeOfTree : Tree → Except TreeError (String × Node)
  | .node tag _ children =>
    match Tag.ofName? tag with
    | some .attr =>
      match children with
      | [key, value] => do
        let key ← symbolName key
        let value ← Node.ofTree value
        return (key, value)
      | _ => .error (.arity tag (.exactly 2) children.length)
    | some .flag =>
      match children with
      | [key] => do
        let key ← symbolName key
        return (key, .bool true)
      | _ => .error (.arity tag (.exactly 1) children.length)
    | _ => .error (.unexpected tag .attributeItem)

end

end RigidScene
