import SampleTypes.Decimal.Binary64

/-!
# Whole numbers as doubles

A whole number of at most 53 binary digits is a double. If `k` is the place of its leading digit,
shifting it by `52 - k` fills the mantissa exactly, so nothing is rounded, and reading the double
back undoes the shift.

Powers of a constant exponent are replaced by their value and the bounds of the shifted mantissa are
shown once; all other steps are linear.

## Main results

* `reading_ofRatio_whole`: the reading of a small whole number.
* `toInt?_ofInt`, `isFinite_ofInt`: a small whole number is a finite double and equal to it.
-/

namespace SampleTypes.Decimal.Binary64

private theorem pow_52 : Nat.pow 2 52 = 4503599627370496 := rfl

private theorem pow_63 : Nat.pow 2 63 = 9223372036854775808 := rfl

/-! ## Bits -/

/-- The bits of a sign, an exponent field that is neither zero nor full, and a fraction are read
back. -/
theorem reading_of_fields (negative : Bool) {biased fraction : Nat} (hbiased : biased < 2046)
    (hfraction : fraction < Nat.pow 2 52) :
    reading ⟨UInt64.ofNat (signBit negative + ((biased + 1) * Nat.pow 2 52 + fraction))⟩ =
      .finite negative (Nat.pow 2 52 + fraction) (biased + leastExponent) := by
  rw [pow_52] at hfraction
  have hsign : signBit negative = 0 ∧ negative = false ∨
      signBit negative = 9223372036854775808 ∧ negative = true := by
    cases negative
    · exact Or.inl ⟨rfl, rfl⟩
    · exact Or.inr ⟨rfl, rfl⟩
  have hbits : (UInt64.ofNat (signBit negative +
      ((biased + 1) * 4503599627370496 + fraction))).toNat =
        signBit negative + ((biased + 1) * 4503599627370496 + fraction) := by
    rw [UInt64.toNat_ofNat']
    apply Nat.mod_eq_of_lt
    rcases hsign with ⟨hbit, -⟩ | ⟨hbit, -⟩ <;> rw [hbit] <;> omega
  have hmagnitude : (signBit negative + ((biased + 1) * 4503599627370496 + fraction)) %
      9223372036854775808 = (biased + 1) * 4503599627370496 + fraction := by
    rcases hsign with ⟨hbit, -⟩ | ⟨hbit, -⟩ <;> rw [hbit] <;> omega
  have hnegative : decide (9223372036854775808 ≤
      signBit negative + ((biased + 1) * 4503599627370496 + fraction)) = negative := by
    rcases hsign with ⟨hbit, hcase⟩ | ⟨hbit, hcase⟩ <;> rw [hbit, hcase]
    · exact decide_eq_false (by omega)
    · exact decide_eq_true (by omega)
  have hexponent : ((biased + 1) * 4503599627370496 + fraction) / 4503599627370496 =
      biased + 1 := by omega
  have hrest : ((biased + 1) * 4503599627370496 + fraction) % 4503599627370496 = fraction := by
    omega
  unfold reading infinityBits
  simp only [pow_52, pow_63, hbits, hmagnitude, hnegative, hexponent, hrest]
  rw [if_neg (by omega), if_neg (by omega)]

/-! ## Rounding -/

/-- The place of the leading digit of a small whole number, and the bounds of the mantissa that
shifting fills. -/
private theorem shifted_bounds {n : Nat} (hn : n ≠ 0) (hlt : n < Nat.pow 2 53) :
    n.log2 < 53 ∧ 4503599627370496 ≤ n * Nat.pow 2 (52 - n.log2) ∧
      n * Nat.pow 2 (52 - n.log2) < 9007199254740992 := by
  have hlog : n.log2 < 53 := (Nat.log2_lt hn).2 hlt
  have hlow : Nat.pow 2 n.log2 ≤ n := Nat.log2_self_le hn
  have hhigh : n < Nat.pow 2 n.log2 * 2 := Nat.lt_log2_self
  have hdigits : Nat.pow 2 n.log2 * Nat.pow 2 (52 - n.log2) = 4503599627370496 := by
    have hsum := Nat.pow_add 2 n.log2 (52 - n.log2)
    rw [show n.log2 + (52 - n.log2) = 52 by omega] at hsum
    exact hsum.symm
  have hdouble : Nat.pow 2 n.log2 * 2 * Nat.pow 2 (52 - n.log2) = 9007199254740992 := by
    rw [Nat.mul_right_comm, hdigits]
  refine ⟨hlog, ?_, ?_⟩
  · rw [← hdigits]
    exact Nat.mul_le_mul_right _ hlow
  · rw [← hdouble]
    exact Nat.mul_lt_mul_of_pos_right hhigh (Nat.two_pow_pos _)

/-- The unit in which a small whole number has 53 digits. -/
theorem unitExponent_whole {n : Nat} (hn : n ≠ 0) (hlt : n < Nat.pow 2 53) :
    unitExponent n 1 = (n.log2 : Int) - 52 := by
  obtain ⟨hlog, hlow, -⟩ := shifted_bounds hn hlt
  have hguess : (n.log2 : Int) - ((1 : Nat).log2 : Int) - 52 = (n.log2 : Int) - 52 := by
    rw [show (1 : Nat).log2 = 0 from by decide]
    omega
  -- The leading digits of the denominator are never the greater ones.
  have hnot : ¬ (if 0 ≤ (n.log2 : Int) - 52 then
      n < Nat.pow 2 (52 + ((n.log2 : Int) - 52).toNat) * 1
      else n * Nat.pow 2 (-((n.log2 : Int) - 52)).toNat < Nat.pow 2 52 * 1) := by
    split
    · have hfull : n.log2 = 52 := by omega
      rw [hfull] at hlow ⊢
      rw [show 52 + (((52 : Nat) : Int) - 52).toNat = 52 from by decide, pow_52]
      rw [show Nat.pow 2 (52 - 52) = 1 from rfl] at hlow
      omega
    · rw [show (-((n.log2 : Int) - 52)).toNat = 52 - n.log2 by omega, pow_52]
      omega
  unfold unitExponent leastExponent
  simp only [hguess, if_neg hnot]
  omega

/-- A quotient without remainder is not rounded. -/
theorem roundHalfEven_one (n : Nat) : roundHalfEven n 1 = n := by
  unfold roundHalfEven
  simp [Nat.mod_one]

/-- **The reading of a small whole number**: its digits, shifted into the mantissa. -/
theorem reading_ofRatio_whole (negative : Bool) {n : Nat} (hn : n ≠ 0)
    (hlt : n < Nat.pow 2 53) :
    reading (ofRatio negative n 1) =
      .finite negative (n * Nat.pow 2 (52 - n.log2)) ((n.log2 : Int) - 52) := by
  obtain ⟨hlog, hlow, hhigh⟩ := shifted_bounds hn hlt
  have hmantissa : (if 0 ≤ (n.log2 : Int) - 52 then
        roundHalfEven n (1 * Nat.pow 2 ((n.log2 : Int) - 52).toNat)
      else roundHalfEven (n * Nat.pow 2 (-((n.log2 : Int) - 52)).toNat) 1) =
        n * Nat.pow 2 (52 - n.log2) := by
    split
    · have hfull : n.log2 = 52 := by omega
      simp only [hfull]
      exact (roundHalfEven_one n).trans (Nat.mul_one n).symm
    · rw [roundHalfEven_one, show (-((n.log2 : Int) - 52)).toNat = 52 - n.log2 by omega]
  have hplace : (((n.log2 : Int) - 52) - leastExponent).toNat = n.log2 + 1022 := by
    unfold leastExponent
    omega
  unfold ofRatio
  rw [if_neg hn]
  simp only [unitExponent_whole hn hlt, hmantissa, hplace]
  generalize n * Nat.pow 2 (52 - n.log2) = mantissa at hlow hhigh ⊢
  have hbits : min ((n.log2 + 1022) * Nat.pow 2 52 + mantissa) infinityBits =
      (n.log2 + 1022 + 1) * Nat.pow 2 52 + (mantissa - Nat.pow 2 52) := by
    rw [infinityBits, pow_52]
    omega
  rw [hbits, reading_of_fields negative (by omega) (by rw [pow_52]; omega)]
  have hexponent : ((n.log2 + 1022 : Nat) : Int) + leastExponent = (n.log2 : Int) - 52 := by
    unfold leastExponent
    omega
  rw [hexponent, pow_52, show 4503599627370496 + (mantissa - 4503599627370496) = mantissa by omega]

/-! ## Whole numbers -/

theorem reading_ofInt_zero : (ofInt 0).reading = .finite false 0 leastExponent := by decide

/-- **A small whole number is equal to its double.** -/
theorem toInt?_ofInt {n : Int} (h : n.natAbs < Nat.pow 2 53) : (ofInt n).toInt? = some n := by
  by_cases hzero : n = 0
  · subst hzero
    unfold toInt?
    rw [reading_ofInt_zero]
    dsimp only
    generalize Nat.pow 2 (-leastExponent).toNat = scale
    generalize Nat.pow 2 leastExponent.toNat = factor
    simp
  have hn : n.natAbs ≠ 0 := by omega
  obtain ⟨hlog, -, -⟩ := shifted_bounds hn h
  unfold ofInt toInt?
  rw [reading_ofRatio_whole _ hn h]
  have hscale : (-((n.natAbs.log2 : Int) - 52)).toNat = 52 - n.natAbs.log2 := by omega
  have hwhole : ((n.natAbs.log2 : Int) - 52).toNat = 0 := by omega
  have hscalePos : 0 < Nat.pow 2 (52 - n.natAbs.log2) := Nat.two_pow_pos _
  simp only [hscale, hwhole, show Nat.pow 2 0 = 1 from rfl]
  generalize Nat.pow 2 (52 - n.natAbs.log2) = scale at hscalePos ⊢
  have hmagnitude : ((n.natAbs * scale : Nat) : Int) * ((1 : Nat) : Int) / (scale : Int) =
      n.natAbs := by
    rw [Int.natCast_one, Int.mul_one, ← Int.natCast_ediv, Nat.mul_div_cancel _ hscalePos]
  simp only [Nat.mul_mod_left, if_true, hmagnitude]
  by_cases hnegative : n < 0
  · simp only [hnegative, decide_true, if_true]
    congr 1
    omega
  · simp only [hnegative, decide_false, Bool.false_eq_true, if_false]
    congr 1
    omega

/-- A small whole number is a finite double. -/
theorem isFinite_ofInt {n : Int} (h : n.natAbs < Nat.pow 2 53) : (ofInt n).isFinite = true := by
  unfold isFinite
  by_cases hzero : n = 0
  · rw [hzero, reading_ofInt_zero]
  · rw [ofInt, reading_ofRatio_whole _ (by omega) h]

end SampleTypes.Decimal.Binary64
