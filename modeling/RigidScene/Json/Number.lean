import RigidScene.Decimal.Text
import RigidScene.Json.Basic

/-!
What the numbers of a JSON text are worth.

The digits are collected into a whole number below `2 ^ 64`, and digits that no longer fit only
count as powers of ten.  The whole number is then multiplied or divided by a power of ten in floating
point, so the result may differ in its last place from the nearest double.  A number that is too
large for a double is worth nothing.
-/

namespace RigidScene.Json

open RigidScene.Decimal (splitSign natOfDigits)

/-- Digits collected so far, the power of ten they are to be multiplied by, and whether a digit has
been left out. -/
structure Collected where
  digits : Nat := 0
  power : Int := 0
  full : Bool := false
  deriving Repr, DecidableEq

namespace Collected

/-- The number with a further digit no longer fits. -/
def overflows (s : Collected) (c : Char) : Bool :=
  UInt64.size ≤ s.digits * 10 + (c.toNat - '0'.toNat)

/-- Takes a digit before the point. -/
def addWhole (s : Collected) (c : Char) : Collected :=
  if s.full || s.overflows c then { s with power := s.power + 1, full := true }
  else { s with digits := s.digits * 10 + (c.toNat - '0'.toNat) }

/-- Takes a digit behind the point. -/
def addFraction (s : Collected) (c : Char) : Collected :=
  if s.full || s.overflows c then { s with full := true }
  else { s with digits := s.digits * 10 + (c.toNat - '0'.toNat), power := s.power - 1 }

end Collected

/-- A power of ten. -/
def powerOfTen (n : Nat) : Float :=
  Float.ofScientific 1 false n

/-- A number times a power of ten, in steps that a double can hold. -/
def scale (x : Float) (power : Int) : Option Float :=
  if 0 ≤ power then
    if power ≤ 308 then
      let y := x * powerOfTen power.toNat
      if y.isInf then none else some y
    else if x == 0 then some x
    else none
  else if -308 ≤ power then some (x / powerOfTen (-power).toNat)
  else if x == 0 then some x
  else scale (x / powerOfTen 308) (power + 308)
termination_by (-power).toNat

/-- The parts of a number behind its sign: digits before the point, digits behind it, power. -/
def numberParts (cs : List Char) : List Char × List Char × Int :=
  let whole := cs.takeWhile Char.isDigit
  let (fraction, rest) :=
    match cs.dropWhile Char.isDigit with
    | '.' :: r => (r.takeWhile Char.isDigit, r.dropWhile Char.isDigit)
    | r => ([], r)
  (whole, fraction, (Decimal.readExponent? rest).getD 0)

/-- A number as a double. -/
def float? : Json → Option Float
  | number spelling =>
    let (negative, cs) := splitSign spelling
    let (whole, fraction, power) := numberParts cs
    let s := whole.foldl Collected.addWhole {}
    let s := fraction.foldl Collected.addFraction { s with full := false }
    (scale (Float.ofNat s.digits) (s.power + power)).map fun x => if negative then -x else x
  | _ => none

/-- A number that is written with digits alone and fits into 64 bits. -/
def natural? : Json → Option Nat
  | number spelling =>
    if spelling.all Char.isDigit ∧ natOfDigits spelling < UInt64.size then some (natOfDigits spelling)
    else none
  | _ => none

end RigidScene.Json
