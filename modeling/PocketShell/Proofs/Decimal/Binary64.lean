import Mathlib.Tactic.FieldSimp
import PocketShell.Proofs.Decimal.Nearest

/-!
# Rounding in the format

The binary64 numbers are computed with unpacked: a sign, a mantissa, and the place of its last bit.
`Stands` says which number such a one stands for, and that it is in the one form in which the format
has it.

An operation does not round by itself. It finds a mantissa, and with two bits more it says how far
the exact result is above the mantissa (`Shows`). Moving the mantissa to the place where it has 53
bits keeps what it shows (`Shows.shiftRight`), and the rounded mantissa is then the nearest integer
(`Shows.roundedMantissa`). By `rounds_of_grid` it is the nearest number of the format too, which is
`exists_stands_roundWithAccuracy`: the condition is that the mantissa is known to a place that is
fine enough. Products and quotients meet the condition (`exists_stands_mul`, `exists_stands_div`).

Packing a number into 64 bits keeps what it stands for (`Stands.repack`).
-/

open Float.Model Float.Model.UnpackedFloat

namespace PocketShell.Decimal

/-! ### Mantissas -/

/-- **Mantissas with two bits behind them** show a number: the first bit says whether it is half a
unit above the mantissa at least, the second whether it is more than what is shown so far. -/
def Shows : ExtendedMantissa → ℚ → Prop
  | ⟨m, false, false⟩, r => r = m
  | ⟨m, false, true⟩, r => m < r ∧ r < m + 1 / 2
  | ⟨m, true, false⟩, r => r = m + 1 / 2
  | ⟨m, true, true⟩, r => m + 1 / 2 < r ∧ r < m + 1

namespace Shows

variable {em : ExtendedMantissa} {r : ℚ}

/-- **Shifting halves** the number that is shown. -/
theorem shiftRightOne (h : Shows em r) : Shows em.shiftRightOne (r / 2) := by
  obtain ⟨m, roundBit, stickyBit⟩ := em
  -- the last bit of the mantissa becomes the first bit behind it
  rcases Nat.even_or_odd' m with ⟨k, rfl | rfl⟩
  · have h_shift : ExtendedMantissa.shiftRightOne ⟨2 * k, roundBit, stickyBit⟩ =
        ⟨k, false, roundBit || stickyBit⟩ := by
      simp [ExtendedMantissa.shiftRightOne]
    rw [h_shift]
    cases roundBit <;> cases stickyBit <;> simp only [Shows, Bool.or_false, Bool.or_true] at h ⊢ <;>
      push_cast at h <;> grind
  · have h_div : (2 * k + 1) / 2 = k := by omega
    have h_shift : ExtendedMantissa.shiftRightOne ⟨2 * k + 1, roundBit, stickyBit⟩ =
        ⟨k, true, roundBit || stickyBit⟩ := by
      simp [ExtendedMantissa.shiftRightOne, h_div]
    rw [h_shift]
    cases roundBit <;> cases stickyBit <;> simp only [Shows, Bool.or_false, Bool.or_true] at h ⊢ <;>
      push_cast at h <;> grind

theorem shiftRight (h : Shows em r) (k : ℕ) : Shows (em >>> k) (r / 2 ^ k) := by
  induction k with
  | zero => rwa [pow_zero, div_one]
  | succ k ih =>
    rw [pow_succ, ← div_div]
    exact ih.shiftRightOne

/-- The mantissa is the integral part. -/
theorem bounds (h : Shows em r) : em.mantissa ≤ r ∧ r < em.mantissa + 1 := by
  obtain ⟨m, roundBit, stickyBit⟩ := em
  match roundBit, stickyBit, h with
  | false, false, h =>
    have h_eq : r = m := h
    exact ⟨h_eq.ge, h_eq.trans_lt (lt_add_one _)⟩
  | false, true, h => exact ⟨h.1.le, by linarith [h.2]⟩
  | true, false, h =>
    have h_eq : r = m + 1 / 2 := h
    constructor <;> linarith
  | true, true, h => exact ⟨by linarith [h.1], h.2⟩

/-- **The rounded mantissa** is the nearest integer. -/
theorem roundedMantissa (h : Shows em r) : RoundsToInt r em.roundedMantissa := by
  obtain ⟨m, roundBit, stickyBit⟩ := em
  match roundBit, stickyBit, h with
  | false, false, h =>
    have h_eq : r = m := h
    exact .below h_eq.ge (h_eq.trans_lt (lt_add_of_pos_right _ one_half_pos))
  | false, true, h => exact .below h.1.le h.2
  | true, false, h => exact .tie h
  | true, true, h => exact .above h.1 h.2.le

end Shows

/-! ### Rounding a mantissa -/

/-- **Standing for a number.** The unpacked number has the sign and the magnitude; it is in the one
form that the format has for it. What is too large for the format is infinite. -/
inductive Stands (s : Sign) : UnpackedFloat → ℚ → Prop where
  | zero : Stands s (.zero s) 0
  | finite {m : ℕ} {e : ℤ} (h_pos : 0 < m) (h_m : m < 2 ^ 53) (h_e : -1074 ≤ e)
      (h_full : e = -1074 ∨ 2 ^ 52 ≤ m) : Stands s (.finite s m e h_pos) (m * 2 ^ e)
  | infinity {x : ℚ} : 2 ^ 1024 ≤ x → Stands s (.infinity s) x

/-- The place at which a number with bits below a power of two has 53 of them, or the least one. -/
theorem targetExponent_binary64 (power : ℤ) :
    Format.binary64.targetExponent power = max (power - 53) (-1074) := rfl

theorem targetExponent_eq (m : ℕ) (e : ℤ) :
    Format.binary64.targetExponent (totalExponent m e) = max (m.log2 + e - 52) (-1074) := by
  rw [targetExponent_binary64, totalExponent]
  omega

/-- A mantissa is shifted to the place where it has 53 bits. -/
theorem shiftToTargetExponent_eq {m : ℕ} {e : ℤ} (accuracy : Accuracy)
    (h : e ≤ Format.binary64.targetExponent (totalExponent m e)) :
    shiftToTargetExponent .binary64 m e accuracy =
      (ExtendedMantissa.ofMantissaAndAccuracy m accuracy >>>
          (Format.binary64.targetExponent (totalExponent m e) - e).toNat,
        Format.binary64.targetExponent (totalExponent m e)) := by
  unfold shiftToTargetExponent shiftToExponent
  dsimp only
  rw [Int.toNat_of_nonneg (by omega), add_sub_cancel]

/-- What has no more than 53 bits stays where it is, but for a carry. -/
theorem shiftToTargetExponent_exact {n : ℕ} {u : ℤ} (h_n : n ≤ 2 ^ 53) (h_u : -1074 ≤ u) :
    shiftToTargetExponent .binary64 n u .exact =
      if n = 2 ^ 53 then (⟨2 ^ 52, false, false⟩, u + 1) else (⟨n, false, false⟩, u) := by
  by_cases h_carry : n = 2 ^ 53
  · have h_target : Format.binary64.targetExponent (totalExponent n u) = u + 1 := by
      rw [targetExponent_eq, h_carry, Nat.log2_two_pow]
      omega
    have h_shift : (u + 1 - u).toNat = 1 := by omega
    rw [shiftToTargetExponent_eq _ (by omega), h_target, h_shift, if_pos h_carry, h_carry]
    rfl
  · have h_log : n.log2 ≤ 52 := by
      by_cases h_zero : n = 0
      · simp [h_zero]
      · exact Nat.le_of_lt_succ ((Nat.log2_lt h_zero).2 (by omega))
    have h_target : Format.binary64.targetExponent (totalExponent n u) ≤ u := by
      rw [targetExponent_eq]
      omega
    unfold shiftToTargetExponent shiftToExponent
    dsimp only
    rw [Int.toNat_of_nonpos (by omega), if_neg h_carry, Int.natCast_zero, add_zero]
    rfl

theorem mantissa_ofMantissaAndAccuracy (m : ℕ) (accuracy : Accuracy) :
    (ExtendedMantissa.ofMantissaAndAccuracy m accuracy).mantissa = m := by
  match accuracy with
  | .exact => rfl
  | .inexact .lt => rfl
  | .inexact .eq => rfl
  | .inexact .gt => rfl

/-- What is shown has 53 bits in front of the place, unless there is no finer place. -/
theorem bits_at_target {m k : ℕ} {e : ℤ} {r : ℚ} (h_low : m ≤ r) (h_high : r < m + 1)
    (h_target : e + k = max (m.log2 + e - 52) (-1074)) :
    r / 2 ^ k ≤ 2 ^ 53 ∧ (e + k = -1074 ∨ 2 ^ 52 ≤ r / 2 ^ k) := by
  have h_pow : (0 : ℚ) < 2 ^ k := by positivity
  constructor
  · have h_bits : m + 1 ≤ 2 ^ (53 + k) :=
      Nat.lt_log2_self.trans_le (Nat.pow_le_pow_right two_pos (by omega))
    rw [div_le_iff₀ h_pow, ← pow_add]
    exact h_high.le.trans (by exact_mod_cast h_bits)
  · rcases max_cases (m.log2 + e - 52) (-1074) with ⟨h_max, -⟩ | ⟨h_max, -⟩
    · have h_log : m.log2 = 52 + k := by omega
      have h_some : m ≠ 0 := by
        rintro rfl
        simp at h_log
        omega
      have h_bits : 2 ^ (52 + k) ≤ m := h_log ▸ Nat.log2_self_le h_some
      rw [le_div_iff₀ h_pow, ← pow_add]
      exact .inr (le_trans (by exact_mod_cast h_bits) h_low)
    · exact .inl (by omega)

/-- **Rounding a mantissa** gives the nearest number of the format. The place is the one of the last
of 53 bits, which is no finer than what is known of the mantissa. -/
theorem exists_stands_roundWithAccuracy (s : Sign) {m : ℕ} {e : ℤ} {accuracy : Accuracy} {r : ℚ}
    (h : Shows (.ofMantissaAndAccuracy m accuracy) r)
    (h_e : e ≤ Format.binary64.targetExponent (totalExponent m e)) :
    ∃ x, Rounds (r * 2 ^ e) x ∧ Stands s (roundWithAccuracy .binary64 s m e accuracy) x := by
  have h_first := shiftToTargetExponent_eq accuracy h_e
  have h_target := targetExponent_eq m e
  generalize Format.binary64.targetExponent (totalExponent m e) = t at h_e h_first h_target
  obtain ⟨k, h_k⟩ := Int.eq_ofNat_of_zero_le (sub_nonneg.2 h_e)
  obtain rfl : t = e + k := by omega
  rw [add_sub_cancel_left, Int.toNat_natCast] at h_first
  have h_int := (h.shiftRight k).roundedMantissa
  generalize (ExtendedMantissa.ofMantissaAndAccuracy m accuracy >>> k) = em at h_first h_int
  obtain ⟨h_low, h_high⟩ := h.bounds
  rw [mantissa_ofMantissaAndAccuracy] at h_low h_high
  obtain ⟨h_fine, h_coarse⟩ := bits_at_target h_low h_high h_target
  have h_rounds := rounds_of_grid h_int h_fine (by omega) h_coarse
  have h_split : r / 2 ^ k * 2 ^ (e + k) = r * 2 ^ e := by
    rw [two_zpow_add, ← mul_assoc, div_mul_cancel₀ r (pow_ne_zero k two_ne_zero)]
  have h_n : em.roundedMantissa ≤ 2 ^ 53 := h_int.le_of_le (by exact_mod_cast h_fine)
  refine ⟨_, h_split ▸ h_rounds, ?_⟩
  unfold roundWithAccuracy
  rw [h_first]
  dsimp only
  rw [shiftToTargetExponent_exact h_n (by omega)]
  -- rounding up may carry, and then the mantissa is a power of two at the next place
  by_cases h_carry : em.roundedMantissa = 2 ^ 53
  · have h_value : (em.roundedMantissa : ℚ) * 2 ^ (e + k) = (2 ^ 52 : ℕ) * 2 ^ (e + k + 1) := by
      rw [h_carry, zpow_add_one₀ two_ne_zero]
      push_cast
      ring
    rw [if_pos h_carry, h_value]
    exact .finite (Nat.two_pow_pos 52) (Nat.pow_lt_pow_right (by omega) (by omega)) (by omega)
      (.inr le_rfl)
  · rw [if_neg h_carry]
    dsimp only
    by_cases h_zero : em.roundedMantissa = 0
    · rw [dif_pos h_zero, h_zero, Nat.cast_zero, zero_mul]
      exact .zero
    · rw [dif_neg h_zero]
      exact .finite _ (by omega) (by omega)
        (h_coarse.imp_right fun h_r => h_int.ge_of_ge (by exact_mod_cast h_r))

/-! ### Packing -/

/-- The bits of a mantissa, with the bit that is not stored. -/
theorem toNat_append_ofNat {m : ℕ} (h_low : 2 ^ 52 ≤ m) (h_high : m < 2 ^ 53) :
    (1#1 ++ BitVec.ofNat 52 m).toNat = m := by
  have h_mod : m % 2 ^ 52 = m - 2 ^ 52 := by omega
  rw [BitVec.toNat_append, ← Nat.shiftLeft_add_eq_or_of_lt (BitVec.isLt _), BitVec.toNat_ofNat,
    BitVec.toNat_ofNat, h_mod, Nat.shiftLeft_eq]
  omega

/-- The sign is the first bit. -/
theorem unpackSign_append (s : Sign) (exponent : BitVec 11) (mantissa : BitVec 52) :
    Sign.ofBitVec (unpackSign (packComponents .binary64 s exponent mantissa)) = s := by
  have h_first : unpackSign (packComponents .binary64 s exponent mantissa) = s.toBitVec := by
    refine BitVec.eq_of_getLsbD_eq fun i h_i => ?_
    obtain rfl : i = 0 := by omega
    change (BitVec.extractLsb 63 63 (s.toBitVec ++ exponent ++ mantissa)).getLsbD 0 = _
    rw [BitVec.getLsbD_extractLsb, BitVec.getLsbD_append, BitVec.getLsbD_append]
    rfl
  rw [h_first]
  cases s <;> rfl

theorem finite_congr {s : Sign} {m m' : ℕ} {e e' : ℤ} {h_pos : 0 < m} {h_pos' : 0 < m'}
    (h_m : m = m') (h_e : e = e') : finite s m e h_pos = finite s m' e' h_pos' := by
  subst h_m h_e
  rfl

/-- **Numbers with all 53 bits:** the exponent is stored, and the first bit is not. -/
theorem unpack_packComponents_full (s : Sign) {m : ℕ} {e : ℤ} (h_pos : 0 < m)
    (h_low : 2 ^ 52 ≤ m) (h_high : m < 2 ^ 53) (h_e : -1074 ≤ e) (h_room : e < 972) :
    UnpackedFloat.unpack .binary64 (packComponents .binary64 s
        (BitVec.ofNat 11 (e + 1023 + 52).toNat) (BitVec.ofNat 52 m)) = .finite s m e h_pos := by
  have h_exp : (BitVec.ofNat 11 (e + 1023 + 52).toNat).toNat = (e + 1023 + 52).toNat := by
    rw [BitVec.toNat_ofNat]
    omega
  have h_ne {b : BitVec 11} (h_b : (e + 1023 + 52).toNat ≠ b.toNat) :
      BitVec.ofNat 11 (e + 1023 + 52).toNat ≠ b := by
    intro h_eq
    exact h_b (h_exp.symm.trans (congrArg BitVec.toNat h_eq))
  have h_last : (-1#11 : BitVec 11).toNat = 2047 := rfl
  have h_first : (0#11 : BitVec 11).toNat = 0 := rfl
  have h_ne_last : BitVec.ofNat 11 (e + 1023 + 52).toNat ≠ -1#11 := h_ne (by omega)
  have h_ne_first : BitVec.ofNat 11 (e + 1023 + 52).toNat ≠ 0#11 := h_ne (by omega)
  unfold UnpackedFloat.unpack
  dsimp only
  rw [unpackExponent_packComponents, if_neg h_ne_last, if_neg h_ne_first, unpackSign_append]
  refine finite_congr ?_ ?_
  · rw [unpackMantissa_packComponents]
    exact toNat_append_ofNat h_low h_high
  · rw [h_exp]
    change ((e + 1023 + 52).toNat : ℤ) - (1023 + 52) = e
    omega

/-- **Numbers with less bits** are at the least place. -/
theorem unpack_packComponents_small (s : Sign) {m : ℕ} (h_pos : 0 < m) (h_high : m < 2 ^ 52) :
    UnpackedFloat.unpack .binary64 (packComponents .binary64 s 0#11 (BitVec.ofNat 52 m)) =
      .finite s m (-1074) h_pos := by
  have h_mantissa : (BitVec.ofNat 52 m).toNat = m := by
    rw [BitVec.toNat_ofNat, Nat.mod_eq_of_lt h_high]
  have h_some : BitVec.ofNat 52 m ≠ 0#52 := by
    intro h_eq
    have h_nat := congrArg BitVec.toNat h_eq
    rw [h_mantissa] at h_nat
    exact h_pos.ne' h_nat
  have h_ne_last : (0#11 : BitVec 11) ≠ -1#11 := by decide
  unfold UnpackedFloat.unpack
  dsimp only
  rw [unpackExponent_packComponents, if_neg h_ne_last, if_pos rfl, dif_neg, unpackSign_append]
  · refine finite_congr ?_ rfl
    rw [unpackMantissa_packComponents, h_mantissa]
  · rwa [unpackMantissa_packComponents]

/-- **Packing** a number and unpacking it again keeps what it stands for. -/
theorem Stands.repack {s : Sign} {f : UnpackedFloat} {x : ℚ} (h : Stands s f x) :
    Stands s (Float.Model.pack f).unpack x := by
  have h_infinity {x : ℚ} (h_x : 2 ^ 1024 ≤ x) :
      Stands s (UnpackedFloat.unpack .binary64 (packedInfinity .binary64 s)) x := by
    cases s <;> exact .infinity h_x
  cases h with
  | zero => cases s <;> exact .zero
  | infinity h_x => exact h_infinity h_x
  | @finite m e h_pos h_m h_e h_full =>
    unfold Float.Model.unpack Float.Model.pack UnpackedFloat.pack
    dsimp only
    have h_bias : ((Format.binary64.exponentBias : ℕ) : ℤ) = 1023 := rfl
    split
    · next h_large =>
      -- the exponent has no place
      rw [h_bias] at h_large
      have h_exp : 972 ≤ e := by omega
      have h_bits : (2 : ℚ) ^ 52 ≤ m := by exact_mod_cast h_full.resolve_left (by omega)
      refine h_infinity ?_
      calc (2 : ℚ) ^ 1024 = (2 : ℚ) ^ 52 * (2 : ℚ) ^ (972 : ℤ) := by
            rw [← zpow_natCast, ← zpow_natCast, ← zpow_add₀ two_ne_zero]
            norm_num
        _ ≤ m * (2 : ℚ) ^ e :=
          mul_le_mul h_bits (zpow_le_zpow_right₀ one_le_two h_exp) (two_zpow_pos _).le
            (Nat.cast_nonneg m)
    · next h_large =>
      rw [h_bias] at h_large ⊢
      have h_room : e < 972 := by omega
      -- with fewer than 53 bits the place is the least one, and its exponent is stored as zero
      split
      · next h_bits =>
        have h_low : 2 ^ 52 ≤ m := by
          have h_log : m.log2 = 52 := by
            change m.log2 + 1 = 53 at h_bits
            omega
          exact h_log ▸ Nat.log2_self_le h_pos.ne'
        have h_unpack := unpack_packComponents_full s h_pos h_low h_m h_e h_room
        exact h_unpack ▸ .finite h_pos h_m h_e h_full
      · next h_bits =>
        have h_high : m < 2 ^ 52 := by
          by_contra h_low
          refine h_bits ?_
          rw [(Nat.log2_eq_iff h_pos.ne').2 ⟨not_lt.1 h_low, h_m⟩]
          rfl
        obtain rfl := h_full.resolve_right (by omega)
        have h_unpack := unpack_packComponents_small s h_pos h_high
        exact h_unpack ▸ .finite h_pos h_m h_e h_full

theorem Stands.neg {s : Sign} {f : UnpackedFloat} {x : ℚ} (h : Stands s f x) :
    Stands (-s) f.neg x := by
  cases h with
  | zero => exact .zero
  | finite h_pos h_m h_e h_full => exact .finite h_pos h_m h_e h_full
  | infinity h_x => exact .infinity h_x

/-! ### Products and quotients -/

/-- **Products** are rounded once. -/
theorem exists_stands_mul {m₁ m₂ : ℕ} {e₁ e₂ : ℤ} (h₁ : 0 < m₁) (h₂ : 0 < m₂)
    (h_full : 2 ^ 52 ≤ m₁ * m₂) :
    ∃ x, Rounds (m₁ * 2 ^ e₁ * (m₂ * 2 ^ e₂)) x ∧
      Stands .positive (UnpackedFloat.mul .binary64 (.finite .positive m₁ e₁ h₁)
        (.finite .positive m₂ e₂ h₂)) x := by
  have h_shows : Shows (.ofMantissaAndAccuracy (m₁ * m₂) .exact) ((m₁ * m₂ : ℕ) : ℚ) := rfl
  have h_log : 52 ≤ (m₁ * m₂).log2 := (Nat.le_log2 (Nat.mul_pos h₁ h₂).ne').2 h_full
  have h_exp : e₁ + e₂ ≤ Format.binary64.targetExponent (totalExponent (m₁ * m₂) (e₁ + e₂)) := by
    rw [targetExponent_eq]
    omega
  obtain ⟨x, h_x, h_stands⟩ := exists_stands_roundWithAccuracy .positive h_shows h_exp
  refine ⟨x, ?_, h_stands⟩
  have h_value : (m₁ : ℚ) * 2 ^ e₁ * (m₂ * 2 ^ e₂) = (m₁ * m₂ : ℕ) * 2 ^ (e₁ + e₂) := by
    rw [zpow_add₀ two_ne_zero]
    push_cast
    ring
  rwa [h_value]

/-- What is left of a division says on which side of a half the quotient is. -/
theorem shows_accuracyOfFraction (a : ℕ) {b : ℕ} (h : 0 < b) :
    Shows (.ofMantissaAndAccuracy (a / b) (accuracyOfFraction (a % b) b)) ((a : ℚ) / b) := by
  have h_b : (0 : ℚ) < b := by exact_mod_cast h
  have h_split : (a : ℚ) / b = (a / b : ℕ) + (a % b : ℕ) / b := by
    rw [div_eq_iff h_b.ne', add_mul, div_mul_cancel₀ _ h_b.ne']
    exact_mod_cast (Nat.div_add_mod' a b).symm
  have h_lt : a % b < b := Nat.mod_lt a h
  generalize a / b = quotient at h_split ⊢
  generalize a % b = rest at h_split h_lt ⊢
  have h_one : (rest : ℚ) / b < 1 := by
    rw [div_lt_one h_b]
    exact_mod_cast h_lt
  rw [h_split]
  unfold accuracyOfFraction
  split
  · next h_zero =>
    rw [h_zero, Nat.cast_zero, zero_div, add_zero]
    exact rfl
  · next h_some =>
    have h_rest : (0 : ℚ) < rest := by exact_mod_cast Nat.pos_of_ne_zero h_some
    have h_pos : (0 : ℚ) < rest / b := div_pos h_rest h_b
    cases h_half : compare (2 * rest) b with
    | lt =>
      have h_below : (rest : ℚ) / b < 1 / 2 := by
        rw [div_lt_div_iff₀ h_b two_pos, one_mul, mul_comm]
        exact_mod_cast Nat.compare_eq_lt.1 h_half
      exact ⟨lt_add_of_pos_right _ h_pos, by gcongr⟩
    | eq =>
      have h_tie : (rest : ℚ) / b = 1 / 2 := by
        rw [div_eq_div_iff h_b.ne' two_ne_zero, one_mul, mul_comm]
        exact_mod_cast Nat.compare_eq_eq.1 h_half
      exact congrArg _ h_tie
    | gt =>
      have h_above : 1 / 2 < (rest : ℚ) / b := by
        rw [div_lt_div_iff₀ two_pos h_b, one_mul, mul_comm]
        exact_mod_cast Nat.compare_eq_gt.1 h_half
      exact ⟨by gcongr, by gcongr⟩

/-- How many bits a quotient has at least. -/
theorem log2_lt_log2_div {a b : ℕ} (h_a : 0 < a) (h_b : 0 < b) (k : ℕ) :
    a.log2 + k < (a <<< k / b).log2 + 1 + (b.log2 + 1) := by
  refine (Nat.pow_lt_pow_iff_right one_lt_two).1 ?_
  calc 2 ^ (a.log2 + k) = 2 ^ a.log2 * 2 ^ k := pow_add _ _ _
    _ ≤ a * 2 ^ k := Nat.mul_le_mul_right _ (Nat.log2_self_le h_a.ne')
    _ = a <<< k := (Nat.shiftLeft_eq _ _).symm
    _ < (a <<< k / b + 1) * b := (Nat.div_lt_iff_lt_mul h_b).1 (Nat.lt_succ_self _)
    _ ≤ 2 ^ ((a <<< k / b).log2 + 1) * 2 ^ (b.log2 + 1) :=
      Nat.mul_le_mul Nat.lt_log2_self Nat.lt_log2_self.le
    _ = 2 ^ ((a <<< k / b).log2 + 1 + (b.log2 + 1)) := (pow_add _ _ _).symm

/-- **Quotients** are rounded once. -/
theorem exists_stands_div {m₁ m₂ : ℕ} {e₁ e₂ : ℤ} (h₁ : 0 < m₁) (h₂ : 0 < m₂) :
    ∃ x, Rounds (m₁ * 2 ^ e₁ / (m₂ * 2 ^ e₂)) x ∧
      Stands .positive (UnpackedFloat.div .binary64 (.finite .positive m₁ e₁ h₁)
        (.finite .positive m₂ e₂ h₂)) x := by
  have h_target := targetExponent_binary64 (totalExponent m₁ e₁ - totalExponent m₂ e₂)
  generalize h_place : min (e₁ - e₂)
    (Format.binary64.targetExponent (totalExponent m₁ e₁ - totalExponent m₂ e₂)) = place
  obtain ⟨k, h_k⟩ : ∃ k : ℕ, e₁ - e₂ - place = k := Int.eq_ofNat_of_zero_le (by omega)
  have h_core : divCore .binary64 m₁ e₁ m₂ e₂ =
      (m₁ <<< k / m₂, place, accuracyOfFraction (m₁ <<< k % m₂) m₂) := by
    unfold divCore
    dsimp only
    rw [h_place, h_k, Int.toNat_natCast]
  have h_shows := shows_accuracyOfFraction (m₁ <<< k) h₂
  -- the quotient has 53 bits in front of the place, or the place is the least one
  have h_fine : place ≤ Format.binary64.targetExponent (totalExponent (m₁ <<< k / m₂) place) := by
    have h_bits := log2_lt_log2_div h₁ h₂ k
    unfold totalExponent at h_target h_place
    rw [targetExponent_eq]
    omega
  obtain ⟨x, h_x, h_stands⟩ := exists_stands_roundWithAccuracy .positive h_shows h_fine
  refine ⟨x, ?_, ?_⟩
  · have h_value : (m₁ : ℚ) * 2 ^ e₁ / (m₂ * 2 ^ e₂) = (m₁ <<< k : ℕ) / m₂ * 2 ^ place := by
      obtain rfl : e₁ = e₂ + place + k := by omega
      have h_m₂ : (m₂ : ℚ) ≠ 0 := by exact_mod_cast h₂.ne'
      rw [Nat.shiftLeft_eq, two_zpow_add, zpow_add₀ two_ne_zero]
      push_cast
      field_simp
    rwa [h_value]
  · change Stands .positive (roundWithAccuracy .binary64 .positive
      (divCore .binary64 m₁ e₁ m₂ e₂).1 (divCore .binary64 m₁ e₁ m₂ e₂).2.1
      (divCore .binary64 m₁ e₁ m₂ e₂).2.2) x
    rwa [h_core]

end PocketShell.Decimal
