/-!
Parsers on lists of characters.

A parser answers a value with the rest of the text, or fails, or aborts.  A failure is ordinary:
another alternative may be tried at the same place.  An abort ends the whole reading and keeps the
text at which it happened; no combinator recovers from it.

`many` and `knot` are where recursion happens.  Both go on only while the text gets shorter, so
every parser built here is a total function; `knot` is what a grammar uses to refer to itself.
-/

namespace RigidScene.Text

/-- What a parser makes of a text. -/
inductive Outcome (α : Type) where
  | ok (value : α) (rest : List Char)
  | fail
  | abort (rest : List Char)

/-- A function from a text to a value and the text behind it. -/
def Parser (α : Type) := List Char → Outcome α

namespace Parser

variable {α β : Type}

/-- `pure` reads nothing; `bind` goes on with the text that the first parser leaves. -/
instance : Monad Parser where
  pure a := fun s => .ok a s
  bind p f := fun s =>
    match p s with
    | .ok a rest => f a rest
    | .fail => .fail
    | .abort rest => .abort rest

/-- The first parser, or the second at the same place where the first fails. -/
def orElse (p q : Parser α) : Parser α := fun s =>
  match p s with
  | .fail => q s
  | o => o

/-- Never succeeds. -/
def failure : Parser α := fun _ => .fail

/-- The first of the alternatives that does not fail. -/
def oneOf (ps : List (Parser α)) : Parser α :=
  ps.foldr orElse failure

/-- The value of `p`, or `none` and the text untouched where `p` fails. -/
def opt (p : Parser α) : Parser (Option α) :=
  orElse (some <$> p) (pure none)

/-- Runs `p`, and aborts the reading where it fails. -/
def required (p : Parser α) : Parser α := fun s =>
  match p s with
  | .fail => .abort s
  | o => o

/-- Succeeds where `p` does and reads nothing. -/
def ahead (p : Parser α) : Parser Unit := fun s =>
  match p s with
  | .ok _ _ => .ok () s
  | .fail => .fail
  | .abort rest => .abort rest

/-- Succeeds where `p` fails and reads nothing. -/
def notAhead (p : Parser α) : Parser Unit := fun s =>
  match p s with
  | .ok _ _ => .fail
  | .fail => .ok () s
  | .abort rest => .abort rest

/-- Succeeds at the end of the text only. -/
def atEnd : Parser Unit
  | [] => .ok () []
  | _ :: _ => .fail

/-- One character of a class. -/
def satisfy (accepts : Char → Bool) : Parser Char
  | [] => .fail
  | c :: rest => if accepts c then .ok c rest else .fail

/-- The given character. -/
def char (c : Char) : Parser Char :=
  satisfy (· = c)

/-- The given characters, one after another. -/
def text : List Char → Parser Unit
  | [], s => .ok () s
  | _ :: _, [] => .fail
  | c :: cs, d :: rest => if d = c then text cs rest else .fail

/-- The longest run of characters of a class, possibly empty. -/
def takeWhile (accepts : Char → Bool) : Parser (List Char) := fun s =>
  .ok (s.takeWhile accepts) (s.dropWhile accepts)

/-- The longest run of characters of a class, at least one. -/
def takeWhile1 (accepts : Char → Bool) : Parser (List Char) :=
  List.cons <$> satisfy accepts <*> takeWhile accepts

/-- As many values of `p` as there are; the first failure ends the list before that item. -/
def many (p : Parser α) (s : List Char) : Outcome (List α) :=
  match p s with
  | .ok a rest =>
    if rest.length < s.length then
      match many p rest with
      | .ok as rest => .ok (a :: as) rest
      | .fail => .fail
      | .abort rest => .abort rest
    else .fail
  | .fail => .ok [] s
  | .abort rest => .abort rest
termination_by s.length

/-- Values of `p` with `separator` between any two, possibly none. -/
def sepBy (p : Parser α) (separator : Parser β) : Parser (List α) :=
  orElse (List.cons <$> p <*> many (separator *> p)) (pure [])

/-- The parser that is given itself, to be used on shorter texts. -/
def knot (step : Parser α → Parser α) (s : List Char) : Outcome α :=
  step (fun t => if t.length < s.length then knot step t else .fail) s
termination_by s.length

end Parser

end RigidScene.Text
