/-
# Rounding intervals

The decimal that a number is shown as rounds to the number, and to no other one.  That a decimal
rounds to a number means that it lies in the interval around the number that `Magnitude.admits`
tests; here the intervals are stated over the rationals, where they can be compared.

* `Magnitude.shortest_rounds` : the shortest decimal of a number lies in its interval;
* `Magnitude.Rounds.unique` : no two doubles have a point of their intervals in common.
-/
import FlatScript.NumberText
import Mathlib.Algebra.Order.Field.Rat
import Mathlib.Tactic.FieldSimp
import Mathlib.Tactic.Linarith
import Mathlib.Tactic.Ring

namespace FlatScript

/-- The number that a decimal denotes. -/
def Decimal.value (d : Decimal) : ℚ :=
  d.digits * 10 ^ d.exponent

namespace Magnitude

/-! ## Intervals over the rationals -/

/-- A quarter of a unit of the last binary place. -/
def quarter (v : Magnitude) : ℚ :=
  2 ^ (v.exponent - 2)

theorem quarter_pos (v : Magnitude) : 0 < v.quarter :=
  zpow_pos (by norm_num) _

/-- A rational rounds to the number.  The ends of the interval do so if the mantissa is even. -/
def Rounds (v : Magnitude) (x : ℚ) : Prop :=
  if v.mantissa % 2 = 0 then v.lower * v.quarter ≤ x ∧ x ≤ v.upper * v.quarter
  else v.lower * v.quarter < x ∧ x < v.upper * v.quarter

/-- Both sides of a power with an integer exponent. -/
theorem pow_toNat_div {a : ℚ} (ha : a ≠ 0) (k : ℤ) : a ^ k.toNat = a ^ k * a ^ (-k).toNat := by
  obtain ⟨n, rfl | rfl⟩ := k.eq_nat_or_neg
  · simp
  · simp [ha]

/-- The fraction of `quarterOver` is a quarter of a unit over the power of ten. -/
theorem quarterOver_eq (v : Magnitude) (s : ℤ) :
    ((v.quarterOver s).1 : ℚ) * 10 ^ s = v.quarter * (v.quarterOver s).2 := by
  have htwo := pow_toNat_div (a := 2) (by norm_num) (v.exponent - 2)
  have hten := pow_toNat_div (a := 10) (by norm_num) s
  rw [neg_sub] at htwo
  simp only [quarterOver, quarter, Nat.pow_eq, Nat.cast_mul, Nat.cast_pow, Nat.cast_ofNat]
  rw [htwo, hten]
  ring

theorem quarterOver_pos (v : Magnitude) (s : ℤ) : (0 : ℚ) < (v.quarterOver s).2 := by
  simp only [quarterOver, Nat.pow_eq, Nat.cast_mul, Nat.cast_pow, Nat.cast_ofNat]
  positivity

/-- Comparing quarters with multiples of a power of ten, as `admits` does it. -/
theorem quarters_le_iff (v : Magnitude) (s : ℤ) (a b : ℕ) :
    (a * (v.quarterOver s).1 ≤ b * (v.quarterOver s).2 ↔ a * v.quarter ≤ b * (10 : ℚ) ^ s) ∧
      (b * (v.quarterOver s).2 ≤ a * (v.quarterOver s).1 ↔ b * (10 : ℚ) ^ s ≤ a * v.quarter) := by
  have hden := v.quarterOver_pos s
  have hten : (0 : ℚ) < 10 ^ s := zpow_pos (by norm_num) _
  have hleft : (a * (v.quarterOver s).1 : ℚ) * 10 ^ s = a * v.quarter * (v.quarterOver s).2 := by
    rw [mul_assoc, v.quarterOver_eq, mul_assoc]
  have hright : (b * (v.quarterOver s).2 : ℚ) * 10 ^ s = b * 10 ^ s * (v.quarterOver s).2 := by
    ring
  constructor <;>
    rw [← Nat.cast_le (α := ℚ), Nat.cast_mul, Nat.cast_mul, ← mul_le_mul_iff_left₀ hten, hleft,
      hright, mul_le_mul_iff_left₀ hden]

/-- The test of `admits` is whether the decimal rounds to the number. -/
theorem admits_iff {v : Magnitude} {s : ℤ} {n : ℕ} : v.admits s n ↔ v.Rounds (n * 10 ^ s) := by
  obtain ⟨hlower, hlower'⟩ := v.quarters_le_iff s v.lower n
  obtain ⟨hupper', hupper⟩ := v.quarters_le_iff s v.upper n
  unfold admits Rounds
  dsimp only
  split
  · rw [Bool.and_eq_true, decide_eq_true_iff, decide_eq_true_iff, hlower, hupper]
  · rw [Bool.and_eq_true, decide_eq_true_iff, decide_eq_true_iff, ← not_le, ← not_le, ← not_le,
      ← not_le, hlower', hupper']

/-! ## The shortest decimal -/

/-- A decimal that was found near a magnitude is rounded to it. -/
theorem rounds_of_nearest? {v : Magnitude} {s : ℤ} {n : ℕ} (h : v.nearest? s = some n) :
    v.Rounds (n * 10 ^ s) := by
  rw [← admits_iff]
  unfold nearest? at h
  dsimp only at h
  split at h <;> (try split at h) <;> simp_all

/-- The ends of the interval lie on both sides of the number. -/
theorem rounds_quarters {v : Magnitude} (h : v.mantissa ≠ 0) :
    v.Rounds (v.quarters * v.quarter) := by
  have hlower : v.lower < v.quarters := by
    unfold lower quarters
    split <;> omega
  have hupper : v.quarters < v.upper := by
    unfold upper
    omega
  have hlt := mul_lt_mul_of_pos_right (Nat.cast_lt (α := ℚ).2 hlower) v.quarter_pos
  have hlt' := mul_lt_mul_of_pos_right (Nat.cast_lt (α := ℚ).2 hupper) v.quarter_pos
  unfold Rounds
  split
  · exact ⟨hlt.le, hlt'.le⟩
  · exact ⟨hlt, hlt'⟩

/-- The value of a magnitude, counted in quarters of its last place. -/
theorem exact_value (v : Magnitude) : v.exact.value = v.quarters * v.quarter := by
  have htwo := pow_toNat_div (a := 2) (by norm_num) v.exponent
  have hquarter : v.quarter * 4 = 2 ^ v.exponent := by
    rw [quarter, show (4 : ℚ) = 2 ^ (2 : ℤ) by norm_num, ← zpow_add₀ (by norm_num), sub_add_cancel]
  simp only [exact, Decimal.value, quarters, Nat.pow_eq, Nat.cast_mul, Nat.cast_pow,
    Nat.cast_ofNat]
  rw [mul_comm (4 : ℚ), mul_assoc (v.mantissa : ℚ) 4, mul_comm (4 : ℚ), hquarter]
  -- A negative power of two is a product of fives over a power of ten.
  rcases le_total 0 v.exponent with h | h
  · have hneg : (-v.exponent).toNat = 0 := by omega
    rw [hneg, pow_zero, mul_one] at htwo
    rw [htwo, hneg, min_eq_right h]
    simp
  · have hpos : v.exponent.toNat = 0 := by omega
    obtain ⟨n, hn⟩ : ∃ n : ℕ, v.exponent = -n := ⟨(-v.exponent).toNat, by omega⟩
    rw [hpos, min_eq_left h, hn]
    simp only [neg_neg, Int.toNat_natCast, zpow_neg, zpow_natCast, pow_zero, mul_one]
    rw [show (10 : ℚ) = 5 * 2 by norm_num, mul_pow]
    field_simp

/-- **The shortest decimal rounds to the number.** -/
theorem shortest_rounds {v : Magnitude} (h : v.mantissa ≠ 0) : v.Rounds v.shortest.value := by
  unfold shortest
  dsimp only
  generalize hfound : List.findSome? _ _ = found
  cases found with
  | none =>
    rw [Option.getD_none, exact_value]
    exact rounds_quarters h
  | some d =>
    obtain ⟨i, -, hi⟩ := List.exists_of_findSome?_eq_some hfound
    obtain ⟨n, hn, rfl⟩ := Option.map_eq_some_iff.1 hi
    exact rounds_of_nearest? hn

/-! ## Different numbers -/

/-- The mantissa and the exponent are those of a double: fifty-three bits, of which the leading one
is set unless the exponent is the least one, and half the distance below a power of two. -/
structure Canonical (v : Magnitude) : Prop where
  mantissa_lt : v.mantissa < 2 ^ 53
  exponent_ge : -1074 ≤ v.exponent
  normal : -1074 < v.exponent → 2 ^ 52 ≤ v.mantissa
  halfBelow_iff : v.halfBelow = true ↔ v.mantissa = 2 ^ 52 ∧ -1074 < v.exponent

/-- What is rounded to a magnitude lies between its two bounds. -/
theorem Rounds.le {v : Magnitude} {x : ℚ} (h : v.Rounds x) :
    v.lower * v.quarter ≤ x ∧ x ≤ v.upper * v.quarter := by
  unfold Rounds at h
  split at h
  · exact h
  · exact ⟨h.1.le, h.2.le⟩

/-- The greater of two doubles. -/
def Above (v w : Magnitude) : Prop :=
  v.exponent < w.exponent ∨ v.exponent = w.exponent ∧ v.mantissa < w.mantissa

/-- The interval of a double ends where that of a greater one begins, or below, and if both own
their ends it is below. -/
theorem Canonical.upper_le {v w : Magnitude} (hv : v.Canonical) (hw : w.Canonical)
    (h : v.Above w) : v.upper ≤ w.lower * 2 ^ (w.exponent - v.exponent).toNat ∧
      (v.mantissa % 2 = 0 → w.mantissa % 2 = 0 →
        v.upper < w.lower * 2 ^ (w.exponent - v.exponent).toNat) := by
  have hmantissa := hv.mantissa_lt
  have hexponent := hv.exponent_ge
  have hhalf := hw.halfBelow_iff
  unfold upper lower quarters
  rcases h with h | ⟨h, hlt⟩
  · -- A factor of two makes up for the greatest mantissa against the least one.
    have hnormal := hw.normal (by omega)
    obtain ⟨k, hk⟩ : ∃ k, (w.exponent - v.exponent).toNat = k + 1 :=
      ⟨(w.exponent - v.exponent).toNat - 1, by omega⟩
    have hfactor : ∀ a, a * 2 ≤ a * 2 ^ (k + 1) := fun a =>
      Nat.mul_le_mul_left a (Nat.le_self_pow (Nat.succ_ne_zero k) 2)
    rw [hk]
    by_cases hbelow : w.halfBelow = true
    · have hleast := (hhalf.1 hbelow).1
      have := hfactor (4 * w.mantissa - 1)
      rw [if_pos hbelow]
      omega
    · have hgreater : w.mantissa ≠ 2 ^ 52 := fun h => hbelow (hhalf.2 ⟨h, by omega⟩)
      have := hfactor (4 * w.mantissa - 2)
      rw [if_neg hbelow]
      omega
  · have hk : (w.exponent - v.exponent).toNat = 0 := by omega
    rw [hk, pow_zero, mul_one]
    have hnormal := hv.normal
    split <;> rename_i hbelow <;> simp only [hbelow] at hhalf <;> omega

/-- The lower end of the interval of a greater magnitude, in quarters of the lesser one. -/
theorem Above.lower_eq {v w : Magnitude} (h : v.Above w) :
    (w.lower : ℚ) * w.quarter =
      ((w.lower * 2 ^ (w.exponent - v.exponent).toNat : ℕ) : ℚ) * v.quarter := by
  have hexponent : v.exponent ≤ w.exponent := by
    rcases h with h | h
    · exact h.le
    · exact h.1.le
  have hquarter : w.quarter = 2 ^ (w.exponent - v.exponent).toNat * v.quarter := by
    rw [quarter, quarter, ← zpow_natCast, Int.toNat_of_nonneg (by omega), ← zpow_add₀ (by norm_num)]
    congr 1
    omega
  rw [hquarter]
  push_cast
  ring

/-- The interval of a magnitude ends where that of a greater one begins, or in front of it, and the
point between the two belongs to one of them only. -/
theorem Rounds.not_above {v w : Magnitude} {x : ℚ} (h : v.Rounds x) (h' : w.Rounds x)
    (hv : v.Canonical) (hw : w.Canonical) : ¬ v.Above w := by
  intro hvw
  obtain ⟨hle, hlt⟩ := hv.upper_le hw hvw
  have hpos := v.quarter_pos
  have hle : (v.upper : ℚ) * v.quarter ≤ w.lower * w.quarter := by
    rw [hvw.lower_eq]
    exact mul_le_mul_of_nonneg_right (Nat.cast_le.2 hle) hpos.le
  by_cases heven : v.mantissa % 2 = 0
  · by_cases heven' : w.mantissa % 2 = 0
    · have hlt : (v.upper : ℚ) * v.quarter < w.lower * w.quarter := by
        rw [hvw.lower_eq]
        exact mul_lt_mul_of_pos_right (Nat.cast_lt.2 (hlt heven heven')) hpos
      linarith [h.le.2, h'.le.1]
    · rw [Rounds, if_neg heven'] at h'
      linarith [h.le.2, h'.1]
  · rw [Rounds, if_neg heven] at h
    linarith [h.2, h'.le.1]

/-- **Intervals have no point in common.**  A rational rounds to at most one double. -/
theorem Rounds.unique {v w : Magnitude} {x : ℚ} (hv : v.Canonical) (hw : w.Canonical)
    (h : v.Rounds x) (h' : w.Rounds x) : v = w := by
  have hexponent : v.exponent = w.exponent := by
    by_contra hne
    rcases lt_or_gt_of_ne hne with hlt | hlt
    · exact h.not_above h' hv hw (.inl hlt)
    · exact h'.not_above h hw hv (.inl hlt)
  have hmantissa : v.mantissa = w.mantissa := by
    by_contra hne
    rcases lt_or_gt_of_ne hne with hlt | hlt
    · exact h.not_above h' hv hw (.inr ⟨hexponent, hlt⟩)
    · exact h'.not_above h hw hv (.inr ⟨hexponent.symm, hlt⟩)
  have hhalf : v.halfBelow = w.halfBelow := by
    rw [Bool.eq_iff_iff, hv.halfBelow_iff, hw.halfBelow_iff, hexponent, hmantissa]
  obtain ⟨m, e, b⟩ := v
  obtain ⟨m', e', b'⟩ := w
  rw [mk.injEq]
  exact ⟨hmantissa, hexponent, hhalf⟩

end Magnitude

end FlatScript
