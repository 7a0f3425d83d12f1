/-!
Tagged trees: what either notation of a scene is read into.

A leaf carries the text of its token, every other node has children in order.  Tags are plain
text, because a tree may come from elsewhere and use tags that no program has.
-/

namespace RigidScene.Syntax

/-- A node with a tag, the text of a token if it is a leaf, and children. -/
inductive Tree where
  | node (tag : String) (text : Option String) (children : List Tree)
  deriving Repr

namespace Tree

def tag : Tree → String
  | node t _ _ => t

def text : Tree → Option String
  | node _ t _ => t

def children : Tree → List Tree
  | node _ _ cs => cs

/-- A node without text. -/
def branch (tag : String) (children : List Tree) : Tree :=
  node tag none children

/-- A node for one token. -/
def leaf (tag : String) (text : List Char) : Tree :=
  node tag (some (String.ofList text)) []

/-- A name. -/
def symbol (text : List Char) : Tree :=
  leaf "symbol" text

/-- A number as it is spelled. -/
def number (text : List Char) : Tree :=
  leaf "number" text

/-- The text between two quotes. -/
def string (text : List Char) : Tree :=
  leaf "string" text

end Tree

end RigidScene.Syntax
