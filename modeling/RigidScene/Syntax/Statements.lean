import RigidScene.Shape
import RigidScene.Syntax.Token
import RigidScene.Text.Location

/-!
The statement notation: infix arithmetic, edges between expressions, blocks in braces.

    a: rectangle 0 0 10 10 #static;
    b: circle 50 0 10 color="red";
    a ~~ b stiffness=0.05;
    { repeat(4, |i| circle (i * 20) 100 5) } translate=[0, 40];

Every rule below takes the rule for a primary expression as its argument, since that is the only
place where the grammar refers back to itself; `primary` ties the knot.  The order of alternatives
is part of the notation: a text is read by the first one that does not fail.
-/

namespace RigidScene.Syntax.Statements

open RigidScene.Text
open RigidScene.Text.Parser (orElse oneOf opt ahead notAhead many sepBy satisfy)

/-- Blanks and line comments. -/
def space : Parser Unit :=
  layout ['/', '/']

/-- Blanks and line comments that begin with a blank. -/
def gap : Parser Unit :=
  Parser.takeWhile1 isSpace *> space

/-- The parser with layout allowed on both sides. -/
def spaced {α : Type} (p : Parser α) : Parser α :=
  space *> p <* space

/-- The first character of a name. -/
def startsName (c : Char) : Bool :=
  isAlphabetic c || c = '_'

/-- A further character of a name. -/
def continuesName (c : Char) : Bool :=
  isAlphanumeric c || c = '_'

/-- The characters of a name. -/
def identifier : Parser (List Char) :=
  List.cons <$> satisfy startsName <*> Parser.takeWhile continuesName

/-- A name as a leaf. -/
def symbol : Parser Tree :=
  Tree.symbol <$> identifier

/-- The name of a shape as a leaf. -/
def shapeName : Parser Tree := do
  let name ← identifier
  if (Shape.ofName? (String.ofList name)).isSome then return Tree.symbol name else Parser.failure

/-- The comma between items. -/
def comma : Parser Char :=
  spaced (Parser.char ',')

/-- An edge between two expressions; the pin comes first because `-o-` and `--` begin alike. -/
def edge : Parser EdgeKind :=
  oneOf [
    Parser.text ['-', 'o', '-'] *> pure EdgeKind.pin,
    Parser.text ['-', '-'] *> pure EdgeKind.rigid,
    Parser.text ['~', '~'] *> pure EdgeKind.spring,
    Parser.text ['.', '.'] *> pure EdgeKind.rope]

/-- `+`, or a `-` that begins no edge. -/
def additiveOperator : Parser Char :=
  orElse (Parser.char '+')
    (Parser.char '-' <* notAhead (satisfy fun c => c = '-' || c = 'o'))

/-- `*` or `/`. -/
def multiplicativeOperator : Parser Char :=
  satisfy fun c => c = '*' || c = '/'

/-- An operation as a call of the function named by the operator. -/
def operation (lhs : Tree) (step : Char × Tree) : Tree :=
  Tree.branch "call" [Tree.symbol [step.1], lhs, step.2]

/-- Operands with operators between them, grouped from the left. -/
def infixChain (operator : Parser Char) (operand : Parser Tree) : Parser Tree := do
  let first ← operand
  let steps ← many (Prod.mk <$> spaced operator <*> operand)
  return steps.foldl operation first

/-- The parameter names of a function. -/
def parameters : Parser Tree :=
  Tree.branch "params" <$> spaced (sepBy symbol comma)

/-- Further semicolons, with layout before each. -/
def semicolons : Parser Unit :=
  discard (many (space *> Parser.char ';'))

/-- What ends a statement: semicolons, or nothing before a closing brace or the end. -/
def terminator : Parser Unit :=
  space *> oneOf [Parser.char ';' *> semicolons, ahead (Parser.char '}'), Parser.atEnd]

/-! Rules that contain expressions. -/

section Rules

variable (primary : Parser Tree)

/-- `key=value` -/
def keyValue : Parser Tree := do
  let key ← symbol <* spaced (Parser.char '=')
  let value ← primary
  return Tree.branch "attr" [key, value]

/-- `#key` -/
def flag : Parser Tree := do
  let key ← Parser.char '#' *> symbol
  return Tree.branch "flag" [key]

/-- One attribute in either spelling. -/
def attributeItem : Parser Tree :=
  orElse (keyValue primary) flag

/-- Attributes, each behind a blank. -/
def attributes : Parser (List Tree) :=
  many (gap *> attributeItem primary)

/-- The children that attributes add to a node: none, or one list. -/
def attributeList (items : List Tree) : List Tree :=
  if items.isEmpty then [] else [Tree.branch "attrs" items]

/-- A shape with arguments and attributes: `circle 0 0 5 #static`, or `body "circle" 0 0 5`. -/
def body : Parser Tree := do
  let shape ← orElse (Parser.text "body".toList *> gap *> orElse symbol string) shapeName
  let items ← many (gap *> orElse (attributeItem primary) primary)
  return Tree.branch "body" (shape :: items)

/-- A body or a primary expression. -/
def application : Parser Tree :=
  orElse (body primary) primary

/-- Products and quotients. -/
def term : Parser Tree :=
  infixChain multiplicativeOperator (application primary)

/-- Sums and differences of terms. -/
def expression : Parser Tree :=
  infixChain additiveOperator (term primary)

/-- An expression, or an edge between two of them with its attributes. -/
def clause : Parser Tree := do
  let source ← expression primary
  let tail ← opt do
    let kind ← spaced edge
    let target ← expression primary
    let items ← attributes primary
    return (kind, target, items)
  match tail with
  | none => return source
  | some (kind, target, items) =>
    return Tree.branch "constraint"
      ([source, Tree.branch kind.name [], target] ++ attributeList items)

/-- `name: clause` -/
def label : Parser Tree := do
  let name ← symbol <* spaced (Parser.char ':')
  let value ← clause primary
  return Tree.branch "label" [name, value]

/-- A labelled or a plain clause. -/
def statement : Parser Tree :=
  orElse (label primary) (clause primary)

/-- Statements with their terminators; semicolons may stand before the first one. -/
def statements : Parser (List Tree) :=
  semicolons *> many (space *> statement primary <* terminator)

/-- Statements in braces. -/
def block : Parser (List Tree) :=
  Parser.char '{' *> statements primary <* space <* Parser.char '}'

/-- `[x, y]` -/
def vector : Parser Tree := do
  let x ← Parser.char '[' *> space *> expression primary
  let y ← comma *> expression primary <* space <* Parser.char ']'
  return Tree.branch "vector" [x, y]

/-- A clause in parentheses. -/
def parenthesized : Parser Tree :=
  Parser.char '(' *> space *> clause primary <* space <* Parser.char ')'

/-- `{ statements } attributes` -/
def scope : Parser Tree := do
  let stmts ← block primary
  let items ← attributes primary
  return Tree.branch "scope" (Tree.branch "composite" stmts :: attributeList items)

/-- `fn(x, y) { statements }` -/
def function : Parser Tree := do
  let params ← Parser.text ['f', 'n'] *> space *> Parser.char '(' *> parameters <* Parser.char ')'
  let stmts ← space *> block primary
  return Tree.branch "fn" [params, Tree.branch "composite" stmts]

/-- `|x, y| clause` -/
def lambda : Parser Tree := do
  let params ← Parser.char '|' *> parameters <* Parser.char '|'
  let result ← space *> clause primary
  return Tree.branch "lambda" [params, result]

/-- `name(clause, ...)` -/
def call : Parser Tree := do
  let callee ← symbol <* Parser.char '(' <* space
  let args ← sepBy (clause primary) comma <* space <* Parser.char ')'
  return Tree.branch "call" (callee :: args)

/-- What a primary expression can be, given what one is inside it. -/
def primaryStep : Parser Tree :=
  oneOf [number, string, vector primary, parenthesized primary, scope primary, function primary,
    lambda primary, call primary, symbol]

end Rules

/-- An expression that needs no operator. -/
def primary : Parser Tree :=
  Parser.knot primaryStep

/-- A whole source: statements and layout up to the end. -/
def program : Parser (List Tree) :=
  statements primary <* space

end RigidScene.Syntax.Statements
