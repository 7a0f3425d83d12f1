import RigidScene.Syntax.Token
import RigidScene.Text.Location

/-!
The parenthesised notation, which spells a tagged tree directly.

    (label :a (body "circle" 0 0 10))
    (constraint a (rigid) (body rectangle 40 0 10 10))

A list is `(tag child ...)`; everything else is a string, a number or a symbol, tried in this
order.  A semicolon starts a comment.
-/

namespace RigidScene.Syntax.Forms

open RigidScene.Text
open RigidScene.Text.Parser (oneOf many)

/-- Blanks and comments. -/
def space : Parser Unit :=
  layout [';']

/-- A character of a tag. -/
def isTagChar (c : Char) : Bool :=
  isAlphanumeric c || c = '_'

/-- A character of a symbol. -/
def isSymbolChar (c : Char) : Bool :=
  isAlphanumeric c || "_-+*/<>=!?:.#".toList.contains c

/-- A name or operator as a leaf. -/
def symbol : Parser Tree :=
  Tree.symbol <$> Parser.takeWhile1 isSymbolChar

/-- A list in parentheses. -/
def list (form : Parser Tree) : Parser Tree := do
  let tag ← Parser.char '(' *> space *> Parser.takeWhile1 isTagChar
  let children ← many (space *> form) <* space <* Parser.char ')'
  return Tree.branch (String.ofList tag) children

/-- What a form can be, given what one is inside it. -/
def formStep (form : Parser Tree) : Parser Tree :=
  oneOf [list form, string, number, symbol]

/-- One form. -/
def form : Parser Tree :=
  Parser.knot formStep

/-- A whole source: forms with layout around them. -/
def program : Parser (List Tree) :=
  space *> many (form <* space) <* space

end RigidScene.Syntax.Forms
