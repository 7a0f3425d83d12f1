/-!
The shortest decimal of a binary number.

A finite number is `mantissa * 2 ^ exponent`, and the reals that round to it form an interval
whose ends count exactly when the mantissa is even.  The decimals with a given power of ten as
their unit form a grid; `Dyadic.shortest` takes the coarsest grid that has a point in the interval,
and on it the point nearest to the number; which of two equally near points is taken is up to the
reader of the text and is given as a `Tie`.  All comparisons are between
natural numbers, so nothing is lost in them.
-/

namespace RigidScene.Decimal

/-- A positive number `mantissa * 2 ^ exponent` among the doubles. -/
structure Dyadic where
  mantissa : Nat
  exponent : Int
  /-- The double below is half as far away as the one above. -/
  narrowBelow : Bool
  deriving Repr, DecidableEq

/-- A number `digits * 10 ^ exponent`. -/
structure Scientific where
  digits : Nat
  exponent : Int
  deriving Repr, DecidableEq

/-- The choice between two points of a grid that are equally near. -/
inductive Tie where
  | up
  | even
  deriving Repr, DecidableEq

namespace Dyadic

/-- The magnitude of a finite double, read off its bits. -/
def ofBits (bits : UInt64) : Dyadic :=
  let e := ((bits >>> 52) &&& 0x7FF).toNat
  let f := (bits &&& 0xFFFFFFFFFFFFF).toNat
  if e = 0 then ⟨f, -1074, false⟩ else ⟨0x10000000000000 + f, (e : Int) - 1075, f = 0 && 1 < e⟩

/-- The numerator of `n * 2 ^ two / 10 ^ ten`. -/
def numerator (two ten : Int) (n : Nat) : Nat :=
  n * Nat.pow 2 two.toNat * Nat.pow 10 (-ten).toNat

/-- The denominator of `n * 2 ^ two / 10 ^ ten`. -/
def denominator (two ten : Int) : Nat :=
  Nat.pow 2 (-two).toNat * Nat.pow 10 ten.toNat

/-- The decimal `d` rounds to `x`. -/
def readsBack (x : Dyadic) (d : Scientific) : Bool :=
  let scaled := numerator (x.exponent - 2) d.exponent
  let point := d.digits * denominator (x.exponent - 2) d.exponent
  let low := scaled (if x.narrowBelow then 4 * x.mantissa - 1 else 4 * x.mantissa - 2)
  let high := scaled (4 * x.mantissa + 2)
  if x.mantissa % 2 = 0 then low ≤ point && point ≤ high else low < point && point < high

/-- The point of the grid with unit `10 ^ unit` that reads back as `x` and lies nearest to it. -/
def onGrid (x : Dyadic) (tie : Tie) (unit : Int) : Option Scientific :=
  let num := numerator x.exponent unit x.mantissa
  let den := denominator x.exponent unit
  let below : Scientific := ⟨num / den, unit⟩
  let above : Scientific := ⟨num / den + 1, unit⟩
  match x.readsBack below, x.readsBack above with
  | true, true =>
    match compare (2 * num) ((2 * (num / den) + 1) * den) with
    | .lt => some below
    | .gt => some above
    | .eq => some (if tie = .even ∧ num / den % 2 = 0 then below else above)
  | true, false => some below
  | false, true => some above
  | false, false => none

/-- The first hit on `count` grids, each ten times finer than the one before. -/
def search (x : Dyadic) (tie : Tie) : Nat → Int → Option Scientific
  | 0, _ => none
  | count + 1, unit => (x.onGrid tie unit).or (x.search tie count (unit - 1))

/-- The number itself, with all its digits. -/
def exact (x : Dyadic) : Scientific :=
  if 0 ≤ x.exponent then ⟨x.mantissa * Nat.pow 2 x.exponent.toNat, 0⟩
  else ⟨x.mantissa * Nat.pow 5 (-x.exponent).toNat, x.exponent⟩

/-- A power of ten above `x`, by at most two steps. -/
def bound (x : Dyadic) : Int :=
  (x.mantissa.log2 + 1 + x.exponent) * 30103 / 100000 + 1

/-- The decimal with the fewest digits that reads back as `x`. -/
def shortest (x : Dyadic) (tie : Tie) : Scientific :=
  (x.search tie 24 x.bound).getD x.exact

end Dyadic

end RigidScene.Decimal
