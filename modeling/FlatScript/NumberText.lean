/-
# The text of a number

Numbers are shown by their shortest decimal, always in positional notation: no exponent however
large or small the number is, and no point where there is no fraction.  Zero keeps its sign; the
values outside the number line are `inf`, `-inf` and `NaN`.
-/
import FlatScript.Magnitude

namespace FlatScript

/-! ## The kinds of floating-point numbers -/

/-- What the bits of a double say. -/
inductive FloatForm where
  | notANumber
  | infinite (negative : Bool)
  | finite (negative : Bool) (magnitude : Magnitude)
deriving DecidableEq

/-- Reads the sign, eleven bits of exponent and fifty-two of fraction.  An exponent field of zero
has no leading one in front of the fraction; above the least exponent, a fraction of zero means
that the numbers below lie half as far apart. -/
def FloatForm.ofBits (bits : Nat) : FloatForm :=
  let negative := (bits >>> 63) % 2 == 1
  let exponent : Nat := (bits >>> 52) % 0x800
  let fraction : Nat := bits % 0x10000000000000
  if exponent = 0x7FF then
    if fraction = 0 then .infinite negative else .notANumber
  else if exponent = 0 then .finite negative ⟨fraction, -1074, false⟩
  else
    .finite negative
      ⟨0x10000000000000 + fraction, (exponent : Int) - 1075, fraction == 0 && exponent != 1⟩

/-! ## Positional notation -/

/-- Digits before and behind the point, without the zeros at the end of the fraction. -/
def pointed (whole fraction : List Char) : List Char :=
  match (fraction.reverse.dropWhile (· = '0')).reverse with
  | [] => whole
  | fraction => whole ++ '.' :: fraction

/-- A decimal in positional notation, with at least one digit before the point. -/
def Decimal.positional (d : Decimal) : List Char :=
  let digits := Nat.toDigits 10 d.digits
  if 0 ≤ d.exponent then digits ++ List.replicate d.exponent.toNat '0'
  else
    let places := (-d.exponent).toNat
    let padded := List.replicate (places + 1 - digits.length) '0' ++ digits
    pointed (padded.take (padded.length - places)) (padded.drop (padded.length - places))

/-- The text of a magnitude: `0`, or its shortest decimal. -/
def Magnitude.text (v : Magnitude) : List Char :=
  if v.mantissa = 0 then ['0'] else v.shortest.positional

/-- The text of a number, as printed and concatenated. -/
def numberText (x : Float) : String :=
  match FloatForm.ofBits x.toBits.toNat with
  | .notANumber => "NaN"
  | .infinite negative => if negative then "-inf" else "inf"
  | .finite negative v => String.ofList (if negative then '-' :: v.text else v.text)

end FlatScript
