/-
# Shortest decimals

A finite number other than zero is `mantissa · 2 ^ exponent`.  The reals that round to it form
an interval around it; the ends of the interval round to it too exactly when the mantissa is
even.  Its shortest decimal is the decimal inside that interval with the fewest digits, and of
those the one nearest to the number; where two are equally near, the greater one.

A decimal with `n` digits is a multiple of a power of ten.  If any multiple lies in the
interval, then so does one of the two that enclose the number, so the search
(`Magnitude.shortest`) looks at these two for `n = 1, 2, … 17`.  Seventeen digits always
suffice; the exact value stands behind them, so that the answer rounds to the number whether one
knows that or not.

All comparisons are between natural numbers: a quarter of the number's last binary place and the
power of ten are brought to a common denominator.
-/

namespace FlatScript

/-- The number `digits · 10 ^ exponent`. -/
structure Decimal where
  digits : Nat
  exponent : Int
deriving DecidableEq

/-- The number `mantissa · 2 ^ exponent`, with the distance to its neighbours: the next greater
number is one unit `2 ^ exponent` away, and so is the next smaller one, unless `halfBelow` says
that it is half a unit. -/
structure Magnitude where
  mantissa : Nat
  exponent : Int
  halfBelow : Bool
deriving DecidableEq

namespace Magnitude

/-! ## The interval of reals that round to the number -/

/-- The number, in quarters of a unit. -/
def quarters (v : Magnitude) : Nat :=
  4 * v.mantissa

/-- The lower end of the interval, in quarters of a unit. -/
def lower (v : Magnitude) : Nat :=
  v.quarters - if v.halfBelow then 1 else 2

/-- The upper end of the interval, in quarters of a unit. -/
def upper (v : Magnitude) : Nat :=
  v.quarters + 2

/-- A quarter of a unit divided by `10 ^ s`, as a fraction of natural numbers. -/
def quarterOver (v : Magnitude) (s : Int) : Nat × Nat :=
  (Nat.pow 2 (v.exponent - 2).toNat * Nat.pow 10 (-s).toNat,
    Nat.pow 2 (2 - v.exponent).toNat * Nat.pow 10 s.toNat)

/-- Whether `n · 10 ^ s` rounds to the number. -/
def admits (v : Magnitude) (s : Int) (n : Nat) : Bool :=
  let (num, den) := v.quarterOver s
  if v.mantissa % 2 = 0 then v.lower * num ≤ n * den && n * den ≤ v.upper * num
  else v.lower * num < n * den && n * den < v.upper * num

/-! ## The search for the fewest digits -/

/-- The multiple of `10 ^ s` that rounds to the number and is nearest to it, among the two that
enclose it; the greater one if they are equally near. -/
def nearest? (v : Magnitude) (s : Int) : Option Nat :=
  let (num, den) := v.quarterOver s
  let n := v.quarters * num / den
  match v.admits s n, v.admits s (n + 1) with
  | true, true => some (if 2 * (v.quarters * num) < (2 * n + 1) * den then n else n + 1)
  | true, false => some n
  | false, true => some (n + 1)
  | false, false => none

/-- The count of decimal digits of a natural number. -/
def width (n : Nat) : Nat :=
  (Nat.toDigits 10 n).length

/-- The exponent `k` of the number's leading digit: the number is at least `10 ^ (k - 1)` and
below `10 ^ k`. -/
def leading (v : Magnitude) : Int :=
  let num := v.mantissa * Nat.pow 2 v.exponent.toNat
  let den := Nat.pow 2 (-v.exponent).toNat
  if den ≤ num then width (num / den) else 1 - (width ((den - 1) / num) : Int)

/-- The number itself as a decimal. -/
def exact (v : Magnitude) : Decimal :=
  ⟨v.mantissa * Nat.pow 2 v.exponent.toNat * Nat.pow 5 (-v.exponent).toNat, min v.exponent 0⟩

/-- The decimal with the fewest digits that rounds to the number, and the nearest one of those. -/
def shortest (v : Magnitude) : Decimal :=
  let found := (List.range 17).findSome? fun (i : Nat) =>
    let s := v.leading - 1 - i
    (v.nearest? s).map (⟨·, s⟩)
  found.getD v.exact

end Magnitude

end FlatScript
