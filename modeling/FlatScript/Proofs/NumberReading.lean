/-
# Numbers told by their texts

The text of a finite number is a decimal in positional notation, perhaps with a sign.  The value of
the decimal can be read off the text again, and it rounds to no other number; so two finite numbers
of the same text are one.

* `Decimal.textValue_positional` : the value of a decimal, read off its positional notation;
* `numberText_injective` : finite numbers with the same text are equal.
-/
import FlatScript.Numeral
import FlatScript.Proofs.Rounding
import Mathlib.Data.List.TakeWhile

namespace FlatScript

/-! ## Doubles and their bits -/

/-- The fields of a double: a sign, eleven bits of exponent and fifty-two of fraction. -/
theorem bits_eq {bits : ℕ} (h : bits < 2 ^ 64) :
    bits = (bits >>> 63) % 2 * 2 ^ 63 + (bits >>> 52) % 0x800 * 2 ^ 52
      + bits % 0x10000000000000 := by
  simp only [Nat.shiftRight_eq_div_pow]
  omega

/-- The fields of a finite double can be told from what it stands for. -/
theorem FloatForm.ofBits_eq_finite {bits : ℕ} {negative : Bool} {v : Magnitude}
    (h : FloatForm.ofBits bits = .finite negative v) :
    v.Canonical ∧ (bits >>> 63) % 2 = negative.toNat ∧
      (bits >>> 52) % 0x800 = (if v.mantissa < 2 ^ 52 then 0 else (v.exponent + 1075).toNat) ∧
      bits % 0x10000000000000 = v.mantissa % 2 ^ 52 := by
  have hfraction : bits % 0x10000000000000 < 2 ^ 52 := Nat.mod_lt _ (by norm_num)
  have hsign : ∀ n, n % 2 = (n % 2 == 1).toNat := by
    intro n
    rcases Nat.mod_two_eq_zero_or_one n with hn | hn <;> rw [hn] <;> rfl
  unfold FloatForm.ofBits at h
  dsimp only at h
  have hexponent : (bits >>> 52) % 0x800 < 0x800 := Nat.mod_lt _ (by norm_num)
  generalize (bits >>> 52) % 0x800 = exponent at h hexponent ⊢
  generalize bits % 0x10000000000000 = fraction at h hfraction ⊢
  split at h
  · split at h <;> cases h
  split at h
  · rename_i hmax hzero
    obtain ⟨rfl, rfl⟩ := FloatForm.finite.inj h
    refine ⟨⟨by dsimp only; omega, le_refl _, fun h => absurd h (lt_irrefl _), ?_⟩, hsign _, ?_,
      (Nat.mod_eq_of_lt hfraction).symm⟩
    · simp
    · rw [if_pos hfraction, hzero]
  · rename_i hmax hzero
    obtain ⟨rfl, rfl⟩ := FloatForm.finite.inj h
    refine ⟨⟨?_, ?_, ?_, ?_⟩, hsign _, ?_, ?_⟩
    · dsimp only
      omega
    · dsimp only
      omega
    · dsimp only
      omega
    · simp only [Bool.and_eq_true, beq_iff_eq, bne_iff_ne]
      omega
    · rw [if_neg (by dsimp only; omega)]
      dsimp only
      omega
    · dsimp only
      omega

/-- A double is given by its bits. -/
theorem eq_of_toBits {x y : Float} (h : x.toBits = y.toBits) : x = y := by
  obtain ⟨⟨bits, _⟩⟩ := x
  obtain ⟨⟨bits', _⟩⟩ := y
  obtain rfl : bits = bits' := h
  rfl

/-- A finite double is given by its sign and its magnitude. -/
theorem eq_of_ofBits {x y : Float} {negative : Bool} {v : Magnitude}
    (hx : FloatForm.ofBits x.toBits.toNat = .finite negative v)
    (hy : FloatForm.ofBits y.toBits.toNat = .finite negative v) : x = y := by
  obtain ⟨-, hsign, hexponent, hfraction⟩ := FloatForm.ofBits_eq_finite hx
  obtain ⟨-, hsign', hexponent', hfraction'⟩ := FloatForm.ofBits_eq_finite hy
  refine eq_of_toBits (UInt64.toNat_inj.1 ?_)
  rw [bits_eq x.toBits.toNat_lt, bits_eq y.toBits.toNat_lt, hsign, hexponent, hfraction, hsign',
    hexponent', hfraction']

open Float.Model in
/-- The exponent field of a finite double is not the greatest one. -/
theorem exponent_ne_of_isFinite {x : Float} (h : x.isFinite) :
    (x.toBits.toNat >>> 52) % 0x800 ≠ 0x7FF := by
  intro hfield
  have hexponent : @UnpackedFloat.unpackExponent Format.binary64 x.toBits.toBitVec = -1#_ := by
    apply BitVec.eq_of_toNat_eq
    unfold UnpackedFloat.unpackExponent
    rw [BitVec.toNat_cast]
    exact hfield
  have hnot : (UnpackedFloat.unpack Format.binary64 x.toBits.toBitVec).isFinite = false := by
    unfold UnpackedFloat.unpack
    dsimp only
    rw [if_pos hexponent]
    split <;> rfl
  have hfinite : (UnpackedFloat.unpack Format.binary64 x.toBits.toBitVec).isFinite = true := h
  rw [hnot] at hfinite
  cases hfinite

/-- A finite number has a magnitude and a sign. -/
theorem exists_finite {x : Float} (h : x.isFinite) :
    ∃ negative v, FloatForm.ofBits x.toBits.toNat = .finite negative v := by
  have hexponent := exponent_ne_of_isFinite h
  unfold FloatForm.ofBits
  dsimp only
  rw [if_neg hexponent]
  split
  · exact ⟨_, _, rfl⟩
  · exact ⟨_, _, rfl⟩

/-! ## Reading positional notation -/

/-- The value of digits with a point among them, or without one. -/
def textValue (cs : List Char) : ℚ :=
  Numeral.natural (cs.takeWhile Char.isDigit ++ (cs.dropWhile Char.isDigit).tail)
    / 10 ^ (cs.dropWhile Char.isDigit).tail.length

/-- The value of digits without a point is the number that they spell. -/
theorem textValue_whole {cs : List Char} (h : ∀ c ∈ cs, c.isDigit = true) :
    textValue cs = Numeral.natural cs := by
  have hdrop : cs.dropWhile Char.isDigit = [] := List.dropWhile_eq_nil_iff.2 h
  rw [textValue, hdrop, List.takeWhile_eq_self_iff.2 h]
  simp

/-- With a point, it is divided by a power of ten. -/
theorem textValue_pointed {whole fraction : List Char} (hwhole : ∀ c ∈ whole, c.isDigit = true) :
    textValue (whole ++ '.' :: fraction) =
      Numeral.natural (whole ++ fraction) / 10 ^ fraction.length := by
  have htake : (whole ++ '.' :: fraction).takeWhile Char.isDigit = whole := by
    rw [List.takeWhile_append_of_pos hwhole]
    exact List.append_nil whole
  have hdrop : (whole ++ '.' :: fraction).dropWhile Char.isDigit = '.' :: fraction := by
    rw [List.dropWhile_append_of_pos hwhole]
    rfl
  rw [textValue, htake, hdrop]
  rfl

/-- Zeros behind some digits are a power of ten. -/
theorem natural_zeros (cs : List Char) (n : ℕ) :
    Numeral.natural (cs ++ List.replicate n '0') = Numeral.natural cs * 10 ^ n := by
  show Nat.ofDigitChars 10 _ 0 = Nat.ofDigitChars 10 _ 0 * _
  rw [Nat.ofDigitChars_append, Nat.ofDigitChars_replicate_zero, mul_comm]

/-- Zeros in front of some digits are nothing. -/
theorem zeros_natural (cs : List Char) (n : ℕ) :
    Numeral.natural (List.replicate n '0' ++ cs) = Numeral.natural cs := by
  show Nat.ofDigitChars 10 _ 0 = Nat.ofDigitChars 10 _ 0
  rw [Nat.ofDigitChars_append, Nat.ofDigitChars_replicate_zero, mul_zero]

/-- The digits of a number spell it. -/
theorem natural_toDigits (n : ℕ) : Numeral.natural (Nat.toDigits 10 n) = n :=
  Nat.ofDigitChars_ten_toDigits

/-- Leaving out the zeros at the end of a fraction leaves its value as it is. -/
theorem textValue_of_pointed {whole fraction : List Char}
    (hwhole : ∀ c ∈ whole, c.isDigit = true) :
    textValue (pointed whole fraction) =
      Numeral.natural (whole ++ fraction) / 10 ^ fraction.length := by
  obtain ⟨kept, n, hfraction, hkept⟩ : ∃ kept n, fraction = kept ++ List.replicate n '0' ∧
      (fraction.reverse.dropWhile (· = '0')).reverse = kept := by
    refine ⟨_, (fraction.reverse.takeWhile (· = '0')).length, ?_, rfl⟩
    have hzeros : fraction.reverse.takeWhile (· = '0') =
        List.replicate (fraction.reverse.takeWhile (· = '0')).length '0' := by
      rw [List.eq_replicate_iff]
      refine ⟨rfl, fun c hc => ?_⟩
      exact of_decide_eq_true (List.mem_takeWhile_imp (p := fun c => decide (c = '0')) hc)
    rw [← List.reverse_replicate, ← hzeros, ← List.reverse_append,
      List.takeWhile_append_dropWhile, List.reverse_reverse]
  have hvalue : ∀ cs : List Char, (Numeral.natural (cs ++ (kept ++ List.replicate n '0')) : ℚ)
      / 10 ^ (kept ++ List.replicate n '0').length =
        Numeral.natural (cs ++ kept) / 10 ^ kept.length := by
    intro cs
    rw [← List.append_assoc, natural_zeros, List.length_append, List.length_replicate, pow_add]
    push_cast
    exact mul_div_mul_right _ _ (by positivity)
  unfold pointed
  rw [hkept, hfraction, hvalue]
  cases kept with
  | nil =>
    rw [textValue_whole hwhole, List.append_nil]
    simp
  | cons c kept => exact textValue_pointed hwhole

/-- The digits of a decimal, filled up with zeros until there is one in front of the point. -/
theorem length_padded (digits : List Char) (places : ℕ) :
    places < (List.replicate (places + 1 - digits.length) '0' ++ digits).length := by
  rw [List.length_append, List.length_replicate]
  omega

theorem isDigit_padded (n m : ℕ) :
    ∀ c ∈ List.replicate n '0' ++ Nat.toDigits 10 m, c.isDigit = true := by
  intro c hc
  rcases List.mem_append.1 hc with hc | hc
  · rw [List.eq_of_mem_replicate hc]
    rfl
  · exact Nat.isDigit_of_mem_toDigits (by norm_num) le_rfl hc

/-- **Positional notation can be read again.** -/
theorem Decimal.textValue_positional (d : Decimal) : textValue d.positional = d.value := by
  have hdigits : ∀ c ∈ Nat.toDigits 10 d.digits, c.isDigit = true :=
    fun c => Nat.isDigit_of_mem_toDigits (by norm_num) le_rfl
  unfold positional Decimal.value
  dsimp only
  split
  · rename_i h
    obtain ⟨n, hn⟩ := Int.eq_ofNat_of_zero_le h
    rw [hn, Int.toNat_natCast, textValue_whole, natural_zeros, natural_toDigits]
    · push_cast
      rw [zpow_natCast]
    · intro c hc
      rcases List.mem_append.1 hc with hc | hc
      · exact hdigits c hc
      · rw [List.eq_of_mem_replicate hc]
        rfl
  · rename_i h
    obtain ⟨n, hn⟩ : ∃ n : ℕ, d.exponent = -n := ⟨(-d.exponent).toNat, by omega⟩
    rw [hn, neg_neg, Int.toNat_natCast, zpow_neg, zpow_natCast]
    have hpadded := isDigit_padded (n + 1 - (Nat.toDigits 10 d.digits).length) d.digits
    have hlength := length_padded (Nat.toDigits 10 d.digits) n
    have hvalue := zeros_natural (Nat.toDigits 10 d.digits)
      (n + 1 - (Nat.toDigits 10 d.digits).length)
    generalize List.replicate _ '0' ++ Nat.toDigits 10 d.digits = padded
      at hpadded hlength hvalue ⊢
    rw [textValue_of_pointed fun c hc => hpadded c (List.mem_of_mem_take hc),
      List.take_append_drop, hvalue, natural_toDigits, List.length_drop, div_eq_mul_inv]
    congr 3
    omega

/-! ## The characters of a number -/

/-- Putting a point among digits adds no other character. -/
theorem mem_of_mem_pointed {whole fraction : List Char} {c : Char}
    (h : c ∈ pointed whole fraction) : c ∈ whole ++ fraction ∨ c = '.' := by
  unfold pointed at h
  split at h
  · exact .inl (List.mem_append_left _ h)
  · rcases List.mem_append.1 h with h | h
    · exact .inl (List.mem_append_left _ h)
    rcases List.mem_cons.1 h with h | h
    · exact .inr h
    · have hmem := (List.dropWhile_suffix _).subset (List.mem_reverse.1 h)
      exact .inl (List.mem_append_right _ (List.mem_reverse.1 hmem))

/-- Positional notation has digits and perhaps a point, but no sign. -/
theorem Decimal.of_mem_positional {d : Decimal} {c : Char} (h : c ∈ d.positional) :
    c.isDigit = true ∨ c = '.' := by
  unfold positional at h
  dsimp only at h
  split at h
  · refine .inl ?_
    rcases List.mem_append.1 h with h | h
    · exact Nat.isDigit_of_mem_toDigits (by norm_num) le_rfl h
    · rw [List.eq_of_mem_replicate h]
      rfl
  · rcases mem_of_mem_pointed h with h | h
    · rw [List.take_append_drop] at h
      exact .inl (isDigit_padded _ _ c h)
    · exact .inr h

/-- The text of a magnitude has digits and a point, and nothing else. -/
theorem Magnitude.of_mem_text {v : Magnitude} {c : Char} (h : c ∈ v.text) :
    c.isDigit = true ∨ c = '.' := by
  unfold text at h
  split at h
  · rw [List.mem_singleton.1 h]
    exact .inl rfl
  · exact Decimal.of_mem_positional h

/-- The text of a magnitude denotes a number that rounds to it, or zero. -/
theorem Magnitude.textValue_text (v : Magnitude) :
    if v.mantissa = 0 then textValue v.text = 0 else v.Rounds (textValue v.text) := by
  unfold text
  split
  · rw [textValue_whole (by simp)]
    rfl
  · rename_i h
    rw [Decimal.textValue_positional]
    exact shortest_rounds h

/-- What is rounded to a positive magnitude is positive. -/
theorem Magnitude.Rounds.pos {v : Magnitude} {x : ℚ} (h : v.Rounds x) (hv : v.mantissa ≠ 0) :
    0 < x := by
  have hlower : 0 < v.lower := by
    unfold lower quarters
    split <;> omega
  exact lt_of_lt_of_le (mul_pos (Nat.cast_pos.2 hlower) v.quarter_pos) h.le.1

theorem Magnitude.text_ne_nil (v : Magnitude) : v.text ≠ [] := by
  intro hnil
  have hvalue := v.textValue_text
  by_cases hzero : v.mantissa = 0
  · rw [text, if_pos hzero] at hnil
    cases hnil
  · rw [if_neg hzero, hnil] at hvalue
    have hempty : textValue [] = 0 := by
      rw [textValue_whole (List.forall_mem_nil _)]
      rfl
    exact (hvalue.pos hzero).ne' hempty

/-- Magnitudes of doubles with the same text are equal. -/
theorem Magnitude.text_injective {v w : Magnitude} (hv : v.Canonical) (hw : w.Canonical)
    (h : v.text = w.text) : v = w := by
  have hvalue := v.textValue_text
  have hvalue' := w.textValue_text
  rw [h] at hvalue
  by_cases hzero : v.mantissa = 0
  · rw [if_pos hzero] at hvalue
    by_cases hzero' : w.mantissa = 0
    · -- There is one zero, with the least exponent.
      have hexponent : ∀ {v : Magnitude}, v.Canonical → v.mantissa = 0 →
          v = ⟨0, -1074, false⟩ := by
        rintro ⟨m, e, b⟩ hv rfl
        have hge := hv.exponent_ge
        have hnormal := hv.normal
        have hhalf := hv.halfBelow_iff
        dsimp only at hge hnormal hhalf
        obtain rfl : e = -1074 := by omega
        have hfalse : b = false := by
          rw [← Bool.not_eq_true, hhalf]
          omega
        rw [hfalse]
      rw [hexponent hv hzero, hexponent hw hzero']
    · rw [if_neg hzero'] at hvalue'
      exact absurd hvalue (hvalue'.pos hzero').ne'
  · rw [if_neg hzero] at hvalue
    by_cases hzero' : w.mantissa = 0
    · rw [if_pos hzero'] at hvalue'
      exact absurd hvalue' (hvalue.pos hzero).ne'
    · rw [if_neg hzero'] at hvalue'
      exact hvalue.unique hv hw hvalue'

/-! ## The text of a number -/

/-- The text of a finite number: its magnitude, behind a sign if it is negative. -/
theorem toList_numberText {x : Float} {negative : Bool} {v : Magnitude}
    (h : FloatForm.ofBits x.toBits.toNat = .finite negative v) :
    (numberText x).toList = if negative then '-' :: v.text else v.text := by
  rw [numberText, h]
  exact String.toList_ofList

/-- **Finite numbers are told by their texts.** -/
theorem numberText_injective {x y : Float} (hx : x.isFinite) (hy : y.isFinite)
    (h : numberText x = numberText y) : x = y := by
  obtain ⟨negative, v, hv⟩ := exists_finite hx
  obtain ⟨negative', w, hw⟩ := exists_finite hy
  have htext := congrArg String.toList h
  rw [toList_numberText hv, toList_numberText hw] at htext
  have hunsigned : ∀ {v : Magnitude}, '-' ∉ v.text := by
    intro v hmem
    rcases Magnitude.of_mem_text hmem with h | h <;> revert h <;> decide
  obtain ⟨rfl, hmagnitude⟩ : negative = negative' ∧ v.text = w.text := by
    cases negative <;> cases negative'
    · exact ⟨rfl, htext⟩
    · have hsign : v.text = '-' :: w.text := htext
      exact absurd (hsign ▸ List.mem_cons_self) hunsigned
    · have hsign : '-' :: v.text = w.text := htext
      exact absurd (hsign ▸ List.mem_cons_self) hunsigned
    · exact ⟨rfl, (List.cons.inj htext).2⟩
  have hcanonical := (FloatForm.ofBits_eq_finite hv).1
  have hcanonical' := (FloatForm.ofBits_eq_finite hw).1
  obtain rfl := Magnitude.text_injective hcanonical hcanonical' hmagnitude
  exact eq_of_ofBits hv hw

theorem numberText_ne_nil {x : Float} (hx : x.isFinite) : (numberText x).toList ≠ [] := by
  obtain ⟨negative, v, hv⟩ := exists_finite hx
  rw [toList_numberText hv]
  cases negative with
  | false => exact v.text_ne_nil
  | true => exact List.cons_ne_nil _ _

/-- A character that the text of a finite number may have. -/
def NumberSign (c : Char) : Prop :=
  c.isDigit = true ∨ c = '.' ∨ c = '-'

/-- The text of a number has digits, a point and a sign, and nothing else. -/
theorem numberSign_of_mem {x : Float} (hx : x.isFinite) {c : Char}
    (h : c ∈ (numberText x).toList) : NumberSign c := by
  obtain ⟨negative, v, hv⟩ := exists_finite hx
  rw [toList_numberText hv] at h
  have htext : c ∈ v.text → NumberSign c := fun h => (Magnitude.of_mem_text h).imp_right .inl
  cases negative with
  | false => exact htext h
  | true =>
    rcases List.mem_cons.1 h with rfl | h
    · exact .inr (.inr rfl)
    · exact htext h

end FlatScript
