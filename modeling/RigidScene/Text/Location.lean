/-!
Places in a source text and the errors that point at them.

A place is known by how much of the source stands before it.  `Location.ofPrefix` reads the line
and the column off that part; `Location.ofOffset` finds the part from a number of UTF-8 bytes, and
an offset that is no character boundary of the source counts as its end.
-/

namespace RigidScene.Text

/-- A line and a column, both counted from one. -/
structure Location where
  line : Nat
  column : Nat
  deriving DecidableEq, Repr

/-- The number of bytes of a text in UTF-8. -/
def byteLength (cs : List Char) : Nat :=
  cs.foldr (fun c n => c.utf8Size + n) 0

/-- The first `n` bytes of a text, if they end at a character boundary inside it. -/
def takeBytes : List Char → Nat → Option (List Char)
  | _, 0 => some []
  | [], _ + 1 => none
  | c :: cs, n + 1 =>
    if c.utf8Size ≤ n + 1 then (takeBytes cs (n + 1 - c.utf8Size)).map (c :: ·) else none

theorem byteLength_append (s t : List Char) :
    byteLength (s ++ t) = byteLength s + byteLength t := by
  induction s with
  | nil => exact (Nat.zero_add _).symm
  | cons c s ih =>
    show c.utf8Size + byteLength (s ++ t) = c.utf8Size + byteLength s + byteLength t
    rw [ih, Nat.add_assoc]

/-- As many bytes as a beginning of a text has are this beginning. -/
theorem takeBytes_append (front rest : List Char) :
    takeBytes (front ++ rest) (byteLength front) = some front := by
  induction front with
  | nil => cases rest <;> rfl
  | cons c front ih =>
    have wide := c.utf8Size_pos
    have length : byteLength (c :: front) = c.utf8Size - 1 + byteLength front + 1 := by
      show c.utf8Size + byteLength front = _
      omega
    have left : c.utf8Size - 1 + byteLength front + 1 - c.utf8Size = byteLength front := by omega
    rw [length, List.cons_append, takeBytes, if_pos (by omega), left, ih]
    rfl

namespace Location

/-- The place right behind `consumed`: lines are ended by newlines, columns count characters. -/
def ofPrefix (consumed : List Char) : Location where
  line := consumed.count '\n' + 1
  column := (consumed.reverse.takeWhile (· ≠ '\n')).length + 1

/-- The place `offset` bytes into the source. -/
def ofOffset (source : List Char) (offset : Nat) : Location :=
  ofPrefix ((takeBytes source offset).getD source)

end Location

/-- Why a source could not be read, and where, if that is known. -/
structure ParseError where
  message : String
  location : Option Location
  deriving DecidableEq, Repr

namespace ParseError

/-- The error at the place where `rest` begins at the end of `source`. -/
def atRest (message : String) (source rest : List Char) : ParseError where
  message := message
  location := some (Location.ofOffset source (byteLength source - byteLength rest))

/-- The error as one line of text. -/
def render (e : ParseError) : String :=
  match e.location with
  | none => s!"Parse error: {e.message}"
  | some l => s!"Parse error: {e.message} at {l.line}:{l.column}"

end ParseError

end RigidScene.Text
