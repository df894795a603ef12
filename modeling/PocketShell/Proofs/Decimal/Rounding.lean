import PocketShell.Proofs.Decimal.Binary64

/-!
# Decimals are rounded to the nearest

`Decimal.toFloat` gives the nearest number of the format, `exists_stands_toFloat`. There are four
ways to it, and none of them rounds twice.

* A significand of 53 bits and a small power of ten are both numbers of the format
  (`stands_toFloat`, `exists_unpack_powerOfTen`), so their product or quotient is all that is
  rounded;
* otherwise the integers themselves are multiplied or divided (`exists_stands_ofScientific`);
* a number with more than 400 zeros behind the point is zero (`rounds_zero`);
* one with more than 400 digits before the point is too large for the format.
-/

open Float.Model Float.Model.UnpackedFloat

namespace PocketShell.Decimal

/-- A number in the range of the format, and not below one, has 53 bits. -/
theorem Stands.exists_eq_finite {s : Sign} {f : UnpackedFloat} {x : ℚ} (h : Stands s f x)
    (h_low : 1 ≤ x) (h_high : x < 2 ^ 1024) :
    ∃ (m : ℕ) (e : ℤ) (h_pos : 0 < m), f = .finite s m e h_pos ∧ 2 ^ 52 ≤ m ∧ x = m * 2 ^ e := by
  cases h with
  | zero => exact absurd h_low (by norm_num)
  | infinity h_x => exact absurd h_high h_x.not_gt
  | @finite m e h_pos h_m h_e h_full =>
    refine ⟨m, e, h_pos, rfl, h_full.resolve_left ?_, rfl⟩
    rintro rfl
    have h_lt : (m : ℚ) < 2 ^ 53 := by exact_mod_cast h_m
    have h_small : (2 : ℚ) ^ (-1074 : ℤ) ≤ 2 ^ (-53 : ℤ) :=
      zpow_le_zpow_right₀ one_le_two (by omega)
    have h_cancel : (2 : ℚ) ^ 53 * 2 ^ (-53 : ℤ) = 1 := by norm_num
    nlinarith [two_zpow_pos (-1074)]

/-- A mantissa may be moved, if the place is. -/
theorem shiftLeft_mul_zpow (m k : ℕ) : ((m <<< k : ℕ) : ℚ) * 2 ^ (-(k : ℤ)) = m := by
  rw [Nat.shiftLeft_eq, zpow_neg, zpow_natCast]
  push_cast
  field_simp

/-- **Integers of 53 bits** are numbers of the format. -/
theorem stands_toFloat {m : ℕ} (h_pos : 0 < m) (h_m : m < 2 ^ 53) :
    Stands .positive m.toUInt64.toFloat.toModel.unpack m := by
  have h_log : m.log2 < 53 := (Nat.log2_lt h_pos.ne').2 h_m
  have h_word : m.toUInt64.toNat = m := UInt64.toNat_ofNat_of_lt (h_m.trans (by decide))
  have h_round : UnpackedFloat.ofUInt64 .binary64 m.toUInt64 =
      UnpackedFloat.round .binary64 .positive m 0 := by
    have h_compare : compare (m : ℤ) 0 = .gt := Int.compare_eq_gt.2 (by omega)
    unfold UnpackedFloat.ofUInt64 UnpackedFloat.ofNat UnpackedFloat.ofInt UnpackedFloat.normalize
    rw [h_word, h_compare]
    rfl
  -- the mantissa is moved to the first of the 53 bits
  obtain ⟨k, h_k⟩ : ∃ k : ℕ, m.log2 + k = 52 := ⟨52 - m.log2, by omega⟩
  have h_target : Format.binary64.targetExponent (totalExponent m 0) = -k := by
    rw [targetExponent_eq]
    omega
  have h_decrease : decreaseExponent m 0 (-k) = (m <<< k, -(k : ℤ)) := by
    have h_shift : ((0 : ℤ) - -k).toNat = k := by omega
    unfold decreaseExponent
    dsimp only
    rw [h_shift, zero_sub]
  have h_bits : 2 ^ 52 ≤ m <<< k := by
    rw [← h_k, pow_add, Nat.shiftLeft_eq]
    exact Nat.mul_le_mul_right _ (Nat.log2_self_le h_pos.ne')
  have h_fine : -(k : ℤ) ≤ Format.binary64.targetExponent (totalExponent (m <<< k) (-k)) := by
    have h_full := (Nat.le_log2 (by omega)).2 h_bits
    rw [targetExponent_eq]
    omega
  have h_shows : Shows (.ofMantissaAndAccuracy (m <<< k) .exact) ((m <<< k : ℕ) : ℚ) := rfl
  obtain ⟨x, h_x, h_stands⟩ := exists_stands_roundWithAccuracy .positive h_shows h_fine
  rw [shiftLeft_mul_zpow] at h_x
  obtain rfl := h_x.eq_of_isBinary (isBinary_natCast h_m.le)
  refine Stands.repack ?_
  rw [h_round, UnpackedFloat.round, h_target, h_decrease]
  exact h_stands

/-- **Integers and powers of ten,** for an exponent that is not out of range. -/
theorem exists_stands_ofScientific {m : ℕ} {e : ℤ} (h_pos : 0 < m) (h_high : e ≤ 2 ^ 11)
    (h_low : -(2 ^ 11 + m.log2) ≤ e) :
    ∃ x, Rounds (m * 10 ^ e) x ∧
      Stands .positive (UnpackedFloat.ofScientific .binary64 m e) x := by
  unfold UnpackedFloat.ofScientific
  rw [dif_neg h_pos.ne', if_neg (not_lt.2 h_high), if_neg (not_lt.2 h_low)]
  -- powers of ten above one are multiplied by, the others divided by
  by_cases h_e : 0 ≤ e
  · rw [if_pos h_e]
    obtain ⟨k, rfl⟩ := Int.eq_ofNat_of_zero_le h_e
    have h_full : 2 ^ 52 ≤ m <<< 53 * 10 ^ k := by
      have h_ten : 0 < 10 ^ k := Nat.pow_pos (by decide)
      calc 2 ^ 52 ≤ 1 * 2 ^ 53 * 1 := by decide
        _ ≤ m * 2 ^ 53 * 10 ^ k := Nat.mul_le_mul (Nat.mul_le_mul_right _ h_pos) h_ten
        _ = m <<< 53 * 10 ^ k := by rw [Nat.shiftLeft_eq]
    obtain ⟨x, h_x, h_stands⟩ := @exists_stands_mul (m <<< 53) (10 ^ k) (-53) 0
      (Nat.shiftLeft_pos_iff.2 h_pos) (Nat.pow_pos (by decide)) h_full
    refine ⟨x, ?_, h_stands⟩
    have h_mantissa : ((m <<< 53 : ℕ) : ℚ) * 2 ^ (-53 : ℤ) = m := shiftLeft_mul_zpow m 53
    rw [h_mantissa, zpow_zero, mul_one, Nat.cast_pow, Nat.cast_ofNat] at h_x
    rwa [zpow_natCast]
  · rw [if_neg h_e]
    obtain ⟨x, h_x, h_stands⟩ :=
      @exists_stands_div m (10 ^ (-e).toNat) 0 0 h_pos (Nat.pow_pos (by decide))
    refine ⟨x, ?_, h_stands⟩
    have h_ten : ((10 ^ (-e).toNat : ℕ) : ℚ) = (10 ^ e)⁻¹ := by
      rw [← zpow_neg, ← Int.toNat_of_nonneg (neg_nonneg.2 (not_le.1 h_e).le), zpow_natCast]
      push_cast
      rfl
    rwa [h_ten, zpow_zero, mul_one, mul_one, div_inv_eq_mul] at h_x

/-- **The powers of ten** that are numbers of the format are listed as they are. -/
theorem toBits_powerOfTen : ∀ i : Fin 23, Float.exactlyRepresentablePowersOfTen[i].toBits =
    (Float.Model.pack (UnpackedFloat.ofScientific .binary64 (10 ^ i.val) 0)).toBits := by
  decide +kernel

theorem model_ext {a b : Float.Model} (h : a.toBits = b.toBits) : a = b := by
  cases a
  cases b
  cases h
  rfl

theorem exists_unpack_powerOfTen {k : ℕ} (h : k < Float.exactlyRepresentablePowersOfTen.size) :
    ∃ (m : ℕ) (e : ℤ) (h_pos : 0 < m), 2 ^ 52 ≤ m ∧ (10 : ℚ) ^ k = m * 2 ^ e ∧
      Float.exactlyRepresentablePowersOfTen[k].toModel.unpack = .finite .positive m e h_pos := by
  have h_k : k ≤ 22 := Nat.le_of_lt_succ h
  have h_model : Float.exactlyRepresentablePowersOfTen[k].toModel =
      Float.Model.pack (UnpackedFloat.ofScientific .binary64 (10 ^ k) 0) :=
    model_ext (toBits_powerOfTen ⟨k, h⟩)
  have h_five : 5 ^ k ≤ 2 ^ 53 :=
    (Nat.pow_le_pow_right (by decide) h_k).trans (by decide)
  have h_binary : IsBinary 53 (-1074) (10 ^ k) := by
    have h_ten : ((5 ^ k : ℕ) : ℚ) * 2 ^ (k : ℤ) = 10 ^ k := by
      rw [zpow_natCast, Nat.cast_pow, ← mul_pow]
      norm_num
    exact h_ten ▸ isBinary_of_le (by decide) h_five (by omega)
  obtain ⟨x, h_x, h_stands⟩ := @exists_stands_ofScientific (10 ^ k) 0 (Nat.pow_pos (by decide))
    (by norm_num) (by omega)
  rw [zpow_zero, mul_one, Nat.cast_pow, Nat.cast_ofNat] at h_x
  -- the power is itself a number of the format, so nothing is rounded
  obtain rfl := h_x.eq_of_isBinary h_binary
  have h_high : (10 : ℚ) ^ k < 2 ^ 1024 :=
    calc (10 : ℚ) ^ k ≤ 10 ^ 22 := pow_le_pow_right₀ (by norm_num) h_k
      _ < 2 ^ 74 := by norm_num
      _ ≤ 2 ^ 1024 := pow_le_pow_right₀ one_le_two (by decide)
  obtain ⟨m, e, h_pos, h_eq, h_full, h_value⟩ :=
    h_stands.repack.exists_eq_finite (one_le_pow₀ (by norm_num)) h_high
  exact ⟨m, e, h_pos, h_full, h_value, h_model ▸ h_eq⟩

/-- **Small numerals** take one operation on two numbers of the format. -/
theorem exists_stands_small {m : ℕ} {e : ℤ} (h_pos : 0 < m) (h_m : m < 2 ^ 53)
    (h_e : e.natAbs ≤ 22) :
    ∃ x, Rounds (m * 10 ^ e) x ∧
      Stands .positive (Float.ofScientific m (e < 0) e.natAbs).toModel.unpack x := by
  have h_one : (1 : ℚ) ≤ m := by exact_mod_cast h_pos
  have h_range : (m : ℚ) < 2 ^ 1024 :=
    calc (m : ℚ) < 2 ^ 53 := by exact_mod_cast h_m
      _ ≤ 2 ^ 1024 := pow_le_pow_right₀ one_le_two (by decide)
  obtain ⟨m₁, e₁, h₁, h_first, h_full, h_value⟩ :=
    (stands_toFloat h_pos h_m).exists_eq_finite h_one h_range
  obtain ⟨m₂, e₂, h₂, -, h_power, h_second⟩ := exists_unpack_powerOfTen (Nat.lt_succ_of_le h_e)
  unfold Float.ofScientific
  rw [dif_pos ⟨h_m, h_e⟩]
  dsimp only
  by_cases h_neg : e < 0
  · obtain ⟨x, h_x, h_stands⟩ := @exists_stands_div m₁ m₂ e₁ e₂ h₁ h₂
    have h_quotient : (m : ℚ) / 10 ^ e.natAbs = m * 10 ^ e := by
      rw [← zpow_natCast, Int.ofNat_natAbs_of_nonpos h_neg.le, zpow_neg, div_inv_eq_mul]
    rw [← h_value, ← h_power, h_quotient] at h_x
    rw [← h_first, ← h_second] at h_stands
    rw [if_pos (decide_eq_true h_neg)]
    exact ⟨x, h_x, h_stands.repack⟩
  · obtain ⟨x, h_x, h_stands⟩ := @exists_stands_mul m₁ m₂ e₁ e₂ h₁ h₂
      (h_full.trans (Nat.le_mul_of_pos_right m₁ h₂))
    have h_product : (m : ℚ) * 10 ^ e.natAbs = m * 10 ^ e := by
      rw [← zpow_natCast, Int.natAbs_of_nonneg (not_lt.1 h_neg)]
    rw [← h_value, ← h_power, h_product] at h_x
    rw [← h_first, ← h_second] at h_stands
    rw [if_neg (by simpa using h_neg)]
    exact ⟨x, h_x, h_stands.repack⟩

/-- **Numerals without a sign,** for an exponent that is not out of range. -/
theorem exists_stands_scientific {m : ℕ} {e : ℤ} (h_pos : 0 < m) (h_high : e ≤ 2 ^ 11)
    (h_low : -(2 ^ 11 + m.log2) ≤ e) :
    ∃ x, Rounds (m * 10 ^ e) x ∧
      Stands .positive (Float.ofScientific m (e < 0) e.natAbs).toModel.unpack x := by
  by_cases h_small : m < 2 ^ 53 ∧ e.natAbs ≤ 22
  · exact exists_stands_small h_pos h_small.1 h_small.2
  · obtain ⟨x, h_x, h_stands⟩ := exists_stands_ofScientific h_pos h_high h_low
    have h_e :
        (if decide (e < 0) = true then Int.negOfNat e.natAbs else Int.ofNat e.natAbs) = e := by
      by_cases h_neg : e < 0
      · rw [if_pos (decide_eq_true h_neg), Int.negOfNat_eq]
        exact neg_eq_iff_eq_neg.2 (Int.ofNat_natAbs_of_nonpos h_neg.le)
      · rw [if_neg (by simpa using h_neg)]
        exact Int.natAbs_of_nonneg (not_lt.1 h_neg)
    unfold Float.ofScientific
    rw [dif_neg h_small]
    dsimp only
    rw [h_e]
    exact ⟨x, h_x, h_stands.repack⟩

/-- The digits of a number say between which powers of ten it is. -/
theorem pow_le_of_digits {m : ℕ} (h_pos : 0 < m) :
    10 ^ ((digits m).length - 1) ≤ m ∧ m < 10 ^ (digits m).length := by
  have h_length : 0 < (digits m).length := Nat.length_toDigits_pos
  refine ⟨?_, (Nat.length_toDigits_le_iff (by decide) h_length).1 le_rfl⟩
  by_contra h_lt
  by_cases h_one : (digits m).length = 1
  · rw [h_one] at h_lt
    exact h_lt h_pos
  · have h_le := (Nat.length_toDigits_le_iff (b := 10) (by decide) (by omega)).2 (not_le.1 h_lt)
    change (digits m).length ≤ (digits m).length - 1 at h_le
    omega

/-- A number with more than 400 zeros behind the point is far below the least of the format. -/
theorem scientific_le_of_digits {m : ℕ} {e : ℤ} (h_pos : 0 < m)
    (h : (digits m).length + e < -400) : (m : ℚ) * 10 ^ e ≤ 2 ^ (-1076 : ℤ) := by
  have h_ten : (0 : ℚ) < 10 ^ e := zpow_pos (by norm_num) e
  obtain ⟨-, h_high⟩ := pow_le_of_digits h_pos
  have h_far : (digits m).length + e ≤ -401 := by omega
  have h_powers : 2 ^ 1076 ≤ 10 ^ 401 := by decide +kernel
  calc (m : ℚ) * 10 ^ e ≤ 10 ^ ((digits m).length : ℤ) * 10 ^ e := by
        rw [zpow_natCast]
        exact mul_le_mul_of_nonneg_right (by exact_mod_cast h_high.le) h_ten.le
    _ = 10 ^ ((digits m).length + e) := (zpow_add₀ (by norm_num) _ _).symm
    _ ≤ 10 ^ (-401 : ℤ) := zpow_le_zpow_right₀ (by norm_num) h_far
    _ ≤ 2 ^ (-1076 : ℤ) := by
      rw [zpow_neg, zpow_neg]
      exact inv_anti₀ (two_zpow_pos _) (by exact_mod_cast h_powers)

/-- A number with more than 400 digits before the point is far above all of the format. -/
theorem le_scientific_of_digits {m : ℕ} {e : ℤ} (h_pos : 0 < m)
    (h : 400 < (digits m).length + e) : (2 : ℚ) ^ 1024 ≤ m * 10 ^ e := by
  have h_ten : (0 : ℚ) < 10 ^ e := zpow_pos (by norm_num) e
  obtain ⟨h_low, -⟩ := pow_le_of_digits h_pos
  have h_far : 400 ≤ (((digits m).length - 1 : ℕ) : ℤ) + e := by omega
  have h_powers : 2 ^ 1024 ≤ 10 ^ 400 := by decide +kernel
  calc (2 : ℚ) ^ 1024 ≤ 10 ^ (400 : ℤ) := by exact_mod_cast h_powers
    _ ≤ 10 ^ ((((digits m).length - 1 : ℕ) : ℤ) + e) :=
      zpow_le_zpow_right₀ (by norm_num) h_far
    _ = 10 ^ (((digits m).length - 1 : ℕ) : ℤ) * 10 ^ e := zpow_add₀ (by norm_num) _ _
    _ ≤ m * 10 ^ e := by
      rw [zpow_natCast]
      exact mul_le_mul_of_nonneg_right (by exact_mod_cast h_low) h_ten.le

/-- What is nearer to zero than half of the least number of the format is rounded to zero. -/
theorem rounds_zero {q : ℚ} (h_nonneg : 0 ≤ q) (h_small : q ≤ 2 ^ (-1076 : ℤ)) : Rounds q 0 := by
  have h_scaled : q * 2 ^ (1074 : ℤ) < 1 / 2 := by
    calc q * 2 ^ (1074 : ℤ) ≤ 2 ^ (-1076 : ℤ) * 2 ^ (1074 : ℤ) :=
          mul_le_mul_of_nonneg_right h_small (two_zpow_pos _).le
      _ < 1 / 2 := by
        rw [← zpow_add₀ two_ne_zero]
        norm_num
  have h_int : RoundsToInt (q * 2 ^ (1074 : ℤ)) 0 := by
    refine .below ?_ ?_
    · rw [Nat.cast_zero]
      exact mul_nonneg h_nonneg (two_zpow_pos _).le
    · rwa [Nat.cast_zero, zero_add]
  have h_rounds := rounds_of_grid h_int (h_scaled.le.trans (by norm_num)) le_rfl (.inl rfl)
  have h_back : q * 2 ^ (1074 : ℤ) * 2 ^ (-1074 : ℤ) = q := by
    rw [mul_assoc, ← zpow_add₀ two_ne_zero]
    norm_num
  rwa [h_back, Nat.cast_zero, zero_mul] at h_rounds

/-- **Numerals without a sign.** -/
theorem exists_stands_magnitude (m : ℕ) (e : ℤ) :
    ∃ x, Rounds (m * 10 ^ e) x ∧ Stands .positive (magnitude m e).toModel.unpack x := by
  unfold magnitude
  dsimp only
  split
  · next h_small =>
    have h_zero : (m : ℚ) * 10 ^ e ≤ 2 ^ (-1076 : ℤ) := by
      rcases Nat.eq_zero_or_pos m with rfl | h_pos
      · rw [Nat.cast_zero, zero_mul]
        exact (two_zpow_pos _).le
      · exact scientific_le_of_digits h_pos (h_small.resolve_left h_pos.ne')
    have h_nonneg : (0 : ℚ) ≤ m * 10 ^ e :=
      mul_nonneg (Nat.cast_nonneg m) (zpow_nonneg (by norm_num) e)
    exact ⟨0, rounds_zero h_nonneg h_zero, .zero⟩
  · next h_some =>
    have h_pos : 0 < m := by omega
    split
    · next h_large =>
      -- any number that it could be rounded to is out of range
      obtain ⟨x, h_x⟩ := exists_rounds (m * 10 ^ e)
      have h_infinite : (Float.ofScientific 1 false 400).toModel =
          Float.Model.pack (.infinity .positive) := model_ext (by decide +kernel)
      have h_le : 2 ^ 1024 ≤ x :=
        h_x.le_of_isBinary (isBinary_two_pow 1024) (le_scientific_of_digits h_pos h_large)
      rw [h_infinite]
      exact ⟨x, h_x, Stands.repack (.infinity h_le)⟩
    · next h_range =>
      have h_two : 2 ^ ((digits m).length - 1) ≤ m :=
        (Nat.pow_le_pow_left (by decide) _).trans (pow_le_of_digits h_pos).1
      have h_log := (Nat.le_log2 h_pos.ne').2 h_two
      exact exists_stands_scientific h_pos (by omega) (by omega)

/-- **Numerals are rounded to the nearest.** -/
theorem exists_stands_toFloat (decimal : Decimal) :
    ∃ x, Rounds decimal.value ((if decimal.negative then -1 else 1) * x) ∧
      Stands (if decimal.negative then .negative else .positive) decimal.toFloat.toModel.unpack
        x := by
  obtain ⟨x, h_x, h_stands⟩ := exists_stands_magnitude decimal.significand decimal.exponent
  refine ⟨x, ?_⟩
  unfold value toFloat
  cases decimal.negative with
  | false => simpa using ⟨h_x, h_stands⟩
  | true =>
    have h_neg := h_x.neg
    rw [← neg_one_mul, ← neg_one_mul x, ← mul_assoc] at h_neg
    exact ⟨h_neg, h_stands.neg.repack⟩

end PocketShell.Decimal
