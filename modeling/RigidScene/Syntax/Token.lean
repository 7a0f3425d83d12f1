import RigidScene.Syntax.Tree
import RigidScene.Text.Alphabet
import RigidScene.Text.Parser

/-!
The tokens that both notations share: layout, numbers and strings.

Layout is any mixture of blanks and comments; the notations differ in what starts a comment, and
in both a comment ends before the next newline.  A number that has an exponent mark must go on
with digits: where they are missing the reading is aborted.
-/

namespace RigidScene.Syntax

open RigidScene.Text

/-- Blanks and comments, in any number. -/
def layout (commentStart : List Char) : Parser Unit :=
  let blanks := discard (Parser.takeWhile1 isSpace)
  let comment := Parser.text commentStart *> discard (Parser.takeWhile (· ≠ '\n'))
  discard (Parser.many (Parser.orElse blanks comment))

/-- A sign, if there is one. -/
def sign : Parser (List Char) := do
  let c ← Parser.opt (Parser.satisfy fun c => c = '+' || c = '-')
  return c.toList

/-- Digits around or behind a point; one side of the point may be empty. -/
def fixedDigits : Parser (List Char) :=
  let digits := Parser.takeWhile1 Char.isDigit
  let fromWhole : Parser (List Char) := do
    let whole ← digits
    let fraction ← Parser.opt do
      let point ← Parser.char '.'
      let after ← Parser.takeWhile Char.isDigit
      return point :: after
    return whole ++ fraction.getD []
  let fromPoint : Parser (List Char) := do
    let point ← Parser.char '.'
    let after ← digits
    return point :: after
  Parser.orElse fromWhole fromPoint

/-- An exponent mark, a sign if there is one, and digits that must not be missing. -/
def exponentPart : Parser (List Char) := do
  let mark ← Parser.satisfy fun c => c = 'e' || c = 'E'
  let sign ← sign
  let digits ← Parser.required (Parser.takeWhile1 Char.isDigit)
  return mark :: sign ++ digits

/-- The characters of a number. -/
def numeral : Parser (List Char) := do
  let sign ← sign
  let digits ← fixedDigits
  let exponent ← Parser.opt exponentPart
  return sign ++ digits ++ exponent.getD []

/-- A number as a leaf. -/
def number : Parser Tree :=
  Tree.number <$> numeral

/-- A string as a leaf; nothing inside the quotes is special. -/
def string : Parser Tree := do
  let _ ← Parser.char '"'
  let text ← Parser.takeWhile (· ≠ '"')
  let _ ← Parser.char '"'
  return Tree.string text

end RigidScene.Syntax
