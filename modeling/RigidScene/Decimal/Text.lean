import RigidScene.Decimal.Shortest

/-!
How numbers are written and read.

`plain` is the form that programs and messages use: the shortest digits, never an exponent, and no
fraction on a whole number.  `fractional` is the form of settings files: a whole number keeps `.0`,
and an exponent stands from `10 ^ 16` up and below `10 ^ -5`.  `read?` accepts either form, and
the names of the infinities and of the value that is no number, in any case of letters.
-/

namespace RigidScene.Decimal

/-- The decimal digits of a number. -/
def digitsOf (n : Nat) : List Char :=
  Nat.toDigits 10 n

namespace Scientific

/-- All digits around a point; whole numbers have no fraction. -/
def positional (d : Scientific) : List Char :=
  let ds := digitsOf d.digits
  if 0 ≤ d.exponent then ds ++ List.replicate d.exponent.toNat '0'
  else
    let places := (-d.exponent).toNat
    if places < ds.length then
      ds.take (ds.length - places) ++ '.' :: ds.drop (ds.length - places)
    else '0' :: '.' :: (List.replicate (places - ds.length) '0' ++ ds)

/-- One digit before the point and a power of ten, whose sign is always written. -/
def withExponent (d : Scientific) : List Char :=
  let ds := digitsOf d.digits
  let power := d.exponent + ds.length - 1
  let fraction := if ds.length ≤ 1 then [] else '.' :: ds.drop 1
  let sign := if power < 0 then '-' else '+'
  ds.take 1 ++ fraction ++ 'e' :: sign :: digitsOf power.natAbs

/-- Positional in a middle range of sizes, with `.0` on whole numbers, and with an exponent
outside it. -/
def mixed (d : Scientific) : List Char :=
  let size := d.exponent + (digitsOf d.digits).length
  if -5 < size ∧ size ≤ 16 then
    if 0 ≤ d.exponent then d.positional ++ ['.', '0'] else d.positional
  else d.withExponent

end Scientific

/-- The sign bit. -/
def isNegative (x : Float) : Bool :=
  x.toBits >>> 63 = 1

/-- The digits of a finite number other than zero, with its sign. -/
def signed (tie : Tie) (layout : Scientific → List Char) (x : Float) : String :=
  let digits := layout ((Dyadic.ofBits x.toBits).shortest tie)
  String.ofList (if isNegative x then '-' :: digits else digits)

/-- The shortest digits that read back, without an exponent. -/
def plain (x : Float) : String :=
  if x.isNaN then "NaN"
  else if x.isInf then if isNegative x then "-inf" else "inf"
  else if x == 0 then if isNegative x then "-0" else "0"
  else signed .up Scientific.positional x

/-- The shortest digits that read back, marked as no whole number; `null` stands for what has no
digits. -/
def fractional (x : Float) : String :=
  if x.isNaN || x.isInf then "null"
  else if x == 0 then if isNegative x then "-0.0" else "0.0"
  else signed .even Scientific.mixed x

/-- The number that a run of digits denotes. -/
def natOfDigits (cs : List Char) : Nat :=
  cs.foldl (fun n c => 10 * n + (c.toNat - '0'.toNat)) 0

/-- The double nearest to `m * 10 ^ e`, of two the one with an even mantissa. -/
def nearest (m : Nat) (e : Int) : Float :=
  if 0 ≤ e then Float.ofScientific m false e.toNat else Float.ofScientific m true (-e).toNat

/-- The sign before a number, and the text behind it. -/
def splitSign : List Char → Bool × List Char
  | '-' :: cs => (true, cs)
  | '+' :: cs => (false, cs)
  | cs => (false, cs)

/-- The power of ten behind a number: nothing, or `e` with a sign and digits. -/
def readExponent? : List Char → Option Int
  | [] => some 0
  | c :: cs =>
    if c = 'e' ∨ c = 'E' then
      let (negative, digits) := splitSign cs
      if digits ≠ [] ∧ digits.all Char.isDigit then
        some (if negative then -(natOfDigits digits : Int) else natOfDigits digits)
      else none
    else none

/-- Digits with at most one point among or beside them, and an exponent. -/
def readDigits? (cs : List Char) : Option Float :=
  let whole := cs.takeWhile Char.isDigit
  let rest := cs.dropWhile Char.isDigit
  let (fraction, rest) :=
    match rest with
    | '.' :: r => (r.takeWhile Char.isDigit, r.dropWhile Char.isDigit)
    | r => ([], r)
  if whole = [] ∧ fraction = [] then none
  else (readExponent? rest).map fun e =>
    nearest (natOfDigits (whole ++ fraction)) (e - fraction.length)

/-- A number without its sign. -/
def readMagnitude? (cs : List Char) : Option Float :=
  let name := cs.map Char.toLower
  if name = ['i', 'n', 'f'] ∨ name = ['i', 'n', 'f', 'i', 'n', 'i', 't', 'y'] then
    some (1.0 / 0.0)
  else if name = ['n', 'a', 'n'] then some (0.0 / 0.0)
  else readDigits? cs

/-- The double nearest to what the text denotes, if it denotes a number. -/
def read? (cs : List Char) : Option Float :=
  let (negative, rest) := splitSign cs
  (readMagnitude? rest).map fun x => if negative then -x else x

end RigidScene.Decimal
