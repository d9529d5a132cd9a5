/-
# Numerals

A numeral is a run of ASCII digits, perhaps with a point and a second run behind it, which may
be empty: `7`, `7.` and `0.125`.  It stands for the double nearest to its value, the even one of
two equally near; too great a value becomes infinite and too small a one zero.
-/

namespace FlatScript

namespace Numeral

/-- The natural number that a run of digits denotes. -/
def natural (digits : List Char) : Nat :=
  digits.foldl (fun n d => 10 * n + (d.toNat - '0'.toNat)) 0

/-- The double nearest to the number with these digits before and behind the point. -/
def value (whole fraction : List Char) : Float :=
  Float.ofScientific (natural (whole ++ fraction)) true fraction.length

/-- The value of a text that is a numeral. -/
def value? (text : List Char) : Option Float :=
  match text.takeWhile Char.isDigit, text.dropWhile Char.isDigit with
  | [], _ => none
  | whole, [] => some (value whole [])
  | whole, '.' :: fraction =>
    if fraction.all Char.isDigit then some (value whole fraction) else none
  | _, _ => none

end Numeral

end FlatScript
