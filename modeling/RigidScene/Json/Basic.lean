import RigidScene.Text.Parser

/-!
JSON texts.

Reading keeps numbers and strings as they are spelled: what a number is worth and which characters
a string stands for is asked only of those that are used, so a text may hold others that mean
nothing.  `Json.read?` accepts exactly one value with blanks around it.
-/

namespace RigidScene

open RigidScene.Text

/-- A JSON value with numbers and strings as they are spelled, strings without their quotes. -/
inductive Json where
  | null
  | bool (value : Bool)
  | number (spelling : List Char)
  | string (spelling : List Char)
  | array (items : List Json)
  | object (members : List (List Char × Json))
  deriving Repr

namespace Json

open RigidScene.Text.Parser (orElse oneOf many opt satisfy sepBy)

/-- A blank of the format. -/
def isSpace (c : Char) : Bool :=
  c = ' ' || c = '\n' || c = '\t' || c = '\r'

/-- Blanks, possibly none. -/
def space : Parser Unit :=
  discard (Parser.takeWhile isSpace)

/-- A hexadecimal digit. -/
def isHexDigit (c : Char) : Bool :=
  c.isDigit || ('a' ≤ c && c ≤ 'f') || ('A' ≤ c && c ≤ 'F')

/-- The value of a hexadecimal digit. -/
def hexValue (c : Char) : Nat :=
  if c.isDigit then c.toNat - '0'.toNat
  else if 'a' ≤ c then c.toNat - 'a'.toNat + 10
  else c.toNat - 'A'.toNat + 10

/-- A whole number: a single zero, or digits that do not begin with one. -/
def whole : Parser (List Char) :=
  orElse
    ((fun c => [c]) <$> Parser.char '0' <* Parser.notAhead (satisfy Char.isDigit))
    (List.cons <$> satisfy (fun c => c.isDigit && c ≠ '0') <*> Parser.takeWhile Char.isDigit)

/-- A point and digits behind it. -/
def fraction : Parser (List Char) :=
  List.cons <$> Parser.char '.' <*> Parser.takeWhile1 Char.isDigit

/-- A mark, a sign if there is one, and digits. -/
def exponent : Parser (List Char) := do
  let mark ← satisfy fun c => c = 'e' || c = 'E'
  let sign ← opt (satisfy fun c => c = '+' || c = '-')
  let digits ← Parser.takeWhile1 Char.isDigit
  return mark :: sign.toList ++ digits

/-- A part of a number that may be missing but not be half there. -/
def optionalPart (starts : Char → Bool) (p : Parser (List Char)) : Parser (List Char) :=
  orElse (Parser.ahead (satisfy starts) *> p)
    (Parser.notAhead (satisfy starts) *> pure [])

/-- The characters of a number. -/
def numeral : Parser (List Char) := do
  let sign ← opt (Parser.char '-')
  let whole ← whole
  let fraction ← optionalPart (· = '.') fraction
  let exponent ← optionalPart (fun c => c = 'e' || c = 'E') exponent
  return sign.toList ++ whole ++ fraction ++ exponent

/-- One character of a string, or an escape. -/
def stringPart : Parser (List Char) :=
  let plain := (fun c => [c]) <$> satisfy fun c => c ≠ '"' && c ≠ '\\' && 0x20 ≤ c.toNat
  let simple := satisfy fun c => ['"', '\\', '/', 'b', 'f', 'n', 'r', 't'].contains c
  let hex := satisfy isHexDigit
  let unicode := do
    let mark ← Parser.char 'u'
    return mark :: [← hex, ← hex, ← hex, ← hex]
  let escape := List.cons <$> Parser.char '\\' <*> orElse ((fun c => [c]) <$> simple) unicode
  orElse plain escape

/-- A string between quotes. -/
def quoted : Parser (List Char) :=
  Parser.char '"' *> List.flatten <$> many stringPart <* Parser.char '"'

/-- The comma between items. -/
def comma : Parser Char :=
  space *> Parser.char ',' <* space

/-- A name and a value. -/
def member (value : Parser Json) : Parser (List Char × Json) := do
  let name ← quoted <* space <* Parser.char ':' <* space
  return (name, ← value)

/-- What a value can be, given what one is inside it. -/
def valueStep (value : Parser Json) : Parser Json :=
  oneOf [
    Parser.text "null".toList *> pure null,
    Parser.text "true".toList *> pure (bool true),
    Parser.text "false".toList *> pure (bool false),
    number <$> numeral,
    string <$> quoted,
    array <$> (Parser.char '[' *> space *> sepBy value comma <* space <* Parser.char ']'),
    object <$> (Parser.char '{' *> space *> sepBy (member value) comma <* space <* Parser.char '}')]

/-- A value. -/
def value : Parser Json :=
  Parser.knot valueStep

/-- The value that a whole text spells. -/
def read? (text : List Char) : Option Json :=
  match (space *> value <* space) text with
  | .ok v [] => some v
  | _ => none

/-- A character by the number of its code point; halves of a pair are none. -/
def ofCodePoint? (n : Nat) : Option Char :=
  if h : n.isValidChar then some (Char.ofNatAux n h) else none

/-- The number of four hexadecimal digits. -/
def hexNumber (a b c d : Char) : Nat :=
  ((hexValue a * 16 + hexValue b) * 16 + hexValue c) * 16 + hexValue d

/-- The character of a simple escape. -/
def escaped (c : Char) : Char :=
  match c with
  | 'b' => '\x08'
  | 'f' => '\x0c'
  | 'n' => '\n'
  | 'r' => '\r'
  | 't' => '\t'
  | other => other

/-- The characters that a string stands for; a character beyond four hexadecimal digits is written
as a pair, and half a pair stands for nothing. -/
def decode? : List Char → Option (List Char)
  | [] => some []
  | '\\' :: 'u' :: a :: b :: c :: d :: rest =>
    let high := hexNumber a b c d
    match rest with
    | '\\' :: 'u' :: a' :: b' :: c' :: d' :: rest' =>
      let low := hexNumber a' b' c' d'
      if 0xD800 ≤ high ∧ high < 0xDC00 ∧ 0xDC00 ≤ low ∧ low < 0xE000 then do
        let c ← ofCodePoint? (0x10000 + (high - 0xD800) * 0x400 + (low - 0xDC00))
        return c :: (← decode? rest')
      else do
        let c ← ofCodePoint? high
        return c :: (← decode? ('\\' :: 'u' :: a' :: b' :: c' :: d' :: rest'))
    | rest => do
      let c ← ofCodePoint? high
      return c :: (← decode? rest)
  | '\\' :: c :: rest => (escaped c :: ·) <$> decode? rest
  | c :: rest => (c :: ·) <$> decode? rest
termination_by cs => cs.length

/-- A truth value. -/
def bool? : Json → Option Bool
  | bool b => some b
  | _ => none

/-- The values of the given names in an object or, in this order, in an array; names may be missing,
but no name may be given twice and an array may not be longer than the list of names. -/
def fields? (names : List String) : Json → Option (List (Option Json))
  | object members => do
    let members ← members.mapM fun m => do return (String.ofList (← decode? m.1), m.2)
    if names.all fun n => members.countP (·.1 = n) ≤ 1 then
      return names.map fun n => members.lookup n
    else none
  | array items =>
    if items.length ≤ names.length then
      some (items.map some ++ List.replicate (names.length - items.length) none)
    else none
  | _ => none

/-- The name of an alternative, alone or as the name of a member that is null. -/
def choice? : Json → Option String
  | string spelling => String.ofList <$> decode? spelling
  | object [(name, null)] => String.ofList <$> decode? name
  | _ => none

end Json

end RigidScene
