import Mathlib.Data.Int.Log
import Mathlib.Data.Rat.Floor
import Mathlib.Tactic.Linarith
import Mathlib.Tactic.Positivity
import Mathlib.Tactic.Ring
import PocketShell.Decimal.Basic

/-!
# The nearest binary number

A numeral denotes a rational number, `Decimal.value`. The numbers of the binary64 format are the
integers of 53 bits times a power of two that is not below `2 ^ (-1074)`; how large the power may be
is left open here. `Decimal.Rounds` says which of them a rational number is rounded to: the nearest
one, and of two that are equally near the one that needs a bit less.

There is always exactly one such number (`Rounds.unique`, `exists_rounds`). It is found on a
**grid**, the multiples of the power of two at which a number has 53 bits (`rounds_of_grid`): a
number of the format that is no point of the grid is smaller than all numbers of 53 bits on it, so
it is not nearer than the smallest of these.
-/

namespace PocketShell.Decimal

/-- **The number that a decimal denotes.** -/
def value (decimal : Decimal) : ℚ :=
  (if decimal.negative then -1 else 1) * decimal.significand * 10 ^ decimal.exponent

/-- **Binary numbers:** an integer of some bits times a power of two that is not below the least. -/
def IsBinary (bits : ℕ) (least : ℤ) (x : ℚ) : Prop :=
  ∃ m e : ℤ, |m| < 2 ^ bits ∧ least ≤ e ∧ x = m * 2 ^ e

/-- **Rounding to the nearest** number of the binary64 format, and of two equally near ones to the
one with an even integer, which is a number of one bit less. -/
structure Rounds (q x : ℚ) : Prop where
  isBinary : IsBinary 53 (-1074) x
  nearest {y : ℚ} : IsBinary 53 (-1074) y → |q - x| ≤ |q - y|
  even {y : ℚ} : IsBinary 53 (-1074) y → |q - y| = |q - x| → y = x ∨ IsBinary 52 (-1073) x

theorem two_zpow_pos (e : ℤ) : (0 : ℚ) < 2 ^ e :=
  zpow_pos two_pos e

theorem two_zpow_add (e : ℤ) (k : ℕ) : (2 : ℚ) ^ (e + k) = 2 ^ k * 2 ^ e := by
  rw [zpow_add₀ two_ne_zero, zpow_natCast, mul_comm]

theorem IsBinary.neg {bits : ℕ} {least : ℤ} {x : ℚ} (h : IsBinary bits least x) :
    IsBinary bits least (-x) := by
  obtain ⟨m, e, h_m, h_e, rfl⟩ := h
  exact ⟨-m, e, by rwa [abs_neg], h_e, by push_cast; ring⟩

/-- An integer of one bit more is one of two bits at another place, if it is as small as that. -/
theorem isBinary_of_le {bits : ℕ} {least e : ℤ} {m : ℕ} (h_bits : 0 < bits) (h_m : m ≤ 2 ^ bits)
    (h_e : least ≤ e) : IsBinary bits least (m * 2 ^ e) := by
  rcases h_m.lt_or_eq with h_lt | rfl
  · exact ⟨m, e, by rw [Nat.abs_cast]; exact_mod_cast h_lt, h_e, by rw [Int.cast_natCast]⟩
  · refine ⟨1, e + bits, ?_, by omega, ?_⟩
    · rw [abs_one]
      exact one_lt_pow₀ one_lt_two h_bits.ne'
    · rw [two_zpow_add]
      push_cast
      ring

/-- Small natural numbers are binary numbers. -/
theorem isBinary_natCast {n : ℕ} (h : n ≤ 2 ^ 53) : IsBinary 53 (-1074) n := by
  have h_binary := @isBinary_of_le 53 (-1074) 0 n (by decide) h (by decide)
  rwa [zpow_zero, mul_one] at h_binary

/-- Powers of two are binary numbers. -/
theorem isBinary_two_pow (k : ℕ) : IsBinary 53 (-1074) (2 ^ k) :=
  ⟨1, k, by norm_num, by omega, by rw [Int.cast_one, one_mul, zpow_natCast]⟩

namespace Rounds

variable {q x y : ℚ}

/-- **The sign** does not matter. -/
theorem neg (h : Rounds q x) : Rounds (-q) (-x) where
  isBinary := h.isBinary.neg
  nearest {y} h_y := by
    have h_le := h.nearest h_y.neg
    rwa [← abs_neg (q - x), ← abs_neg (q - -y), neg_sub', neg_sub', neg_neg, sub_neg_eq_add,
      ← sub_neg_eq_add] at h_le
  even {y} h_y h_same := by
    have h_back : |q - -y| = |q - x| := by
      rw [← abs_neg (q - x), ← abs_neg (q - -y), neg_sub', neg_sub', neg_neg]
      exact h_same
    refine (h.even h_y.neg h_back).imp (fun h_eq => ?_) IsBinary.neg
    rw [← h_eq, neg_neg]

/-- A number of the format is rounded to itself. -/
theorem eq_of_isBinary (h : Rounds q x) (h_q : IsBinary 53 (-1074) q) : x = q := by
  have h_le := h.nearest h_q
  rw [sub_self, abs_zero] at h_le
  exact (sub_eq_zero.1 (abs_nonpos_iff.1 h_le)).symm

/-- **Rounding does not pass a number of the format.** -/
theorem le_of_isBinary (h : Rounds q x) (h_y : IsBinary 53 (-1074) y) (h_le : y ≤ q) : y ≤ x := by
  by_contra h_lt
  have h_near := h.nearest h_y
  rw [abs_of_nonneg (by linarith), abs_of_nonneg (by linarith)] at h_near
  linarith

/-- A nearest number that needs a bit less has a neighbour at half the place of its last bit, and
that is not nearer. -/
theorem two_mul_abs_le {m e : ℤ} (h : Rounds q x) (h_m : |m| < 2 ^ 52) (h_e : -1073 ≤ e)
    (h_x : x = m * 2 ^ e) : 2 * |q - x| ≤ 2 ^ (e - 1) := by
  have h_half : (2 : ℚ) ^ e = 2 * 2 ^ (e - 1) := by
    rw [zpow_sub_one₀ two_ne_zero]
    ring
  have h_step : (0 : ℚ) < 2 ^ (e - 1) := two_zpow_pos _
  -- the neighbours on both sides
  have h_above : IsBinary 53 (-1074) (x + 2 ^ (e - 1)) :=
    ⟨2 * m + 1, e - 1, by rw [abs_lt] at h_m ⊢; omega, by omega, by
      rw [h_x, h_half]
      push_cast
      ring⟩
  have h_below : IsBinary 53 (-1074) (x - 2 ^ (e - 1)) :=
    ⟨2 * m - 1, e - 1, by rw [abs_lt] at h_m ⊢; omega, by omega, by
      rw [h_x, h_half]
      push_cast
      ring⟩
  rcases le_total x q with h_le | h_le
  · have h_near := h.nearest h_above
    rw [abs_of_nonneg (sub_nonneg.2 h_le)] at h_near ⊢
    rcases le_abs.1 h_near with h_case | h_case
    · linarith
    · linarith
  · have h_near := h.nearest h_below
    rw [abs_of_nonpos (sub_nonpos.2 h_le)] at h_near ⊢
    rcases le_abs.1 h_near with h_case | h_case
    · linarith
    · linarith

/-- Two multiples of powers of two are as far apart as the smaller of the powers. -/
theorem zpow_le_abs_sub {m m' e e' : ℤ} (h_e : e ≤ e') (h_ne : (m : ℚ) * 2 ^ e ≠ m' * 2 ^ e') :
    (2 : ℚ) ^ e ≤ |(m : ℚ) * 2 ^ e - m' * 2 ^ e'| := by
  obtain ⟨k, h_k⟩ := Int.eq_ofNat_of_zero_le (sub_nonneg.2 h_e)
  obtain rfl : e' = e + k := by omega
  have h_diff : (m : ℚ) * 2 ^ e - m' * 2 ^ (e + k) = ((m - m' * 2 ^ k : ℤ) : ℚ) * 2 ^ e := by
    rw [two_zpow_add]
    push_cast
    ring
  have h_some : m - m' * 2 ^ k ≠ 0 := by
    intro h_zero
    rw [h_zero, Int.cast_zero, zero_mul] at h_diff
    exact h_ne (sub_eq_zero.1 h_diff)
  have h_one : (1 : ℚ) ≤ |((m - m' * 2 ^ k : ℤ) : ℚ)| := by
    exact_mod_cast Int.one_le_abs h_some
  rw [h_diff, abs_mul, abs_of_pos (two_zpow_pos e)]
  exact le_mul_of_one_le_left (two_zpow_pos e).le h_one

/-- **A number is rounded in one way.** -/
theorem unique (h : Rounds q x) (h' : Rounds q y) : x = y := by
  by_contra h_ne
  have h_same : |q - y| = |q - x| :=
    le_antisymm (h'.nearest h.isBinary) (h.nearest h'.isBinary)
  -- both need a bit less, so they are near to `q`, but they are not that near to each other
  obtain ⟨m, e, h_m, h_e, h_x⟩ := (h.even h'.isBinary h_same).resolve_left (Ne.symm h_ne)
  obtain ⟨m', e', h_m', h_e', h_y⟩ := (h'.even h.isBinary h_same.symm).resolve_left h_ne
  have h_first := h.two_mul_abs_le h_m h_e h_x
  have h_second := h'.two_mul_abs_le h_m' h_e' h_y
  have h_apart : |x - y| ≤ |q - x| + |q - y| := by
    rw [abs_sub_comm q x]
    exact abs_sub_le x q y
  rw [h_same] at h_second h_apart
  rcases le_total e e' with h_le | h_le
  · have h_gap := zpow_le_abs_sub h_le (h_x ▸ h_y ▸ h_ne)
    rw [← h_x, ← h_y] at h_gap
    have h_lt : (2 : ℚ) ^ (e - 1) < 2 ^ e := zpow_lt_zpow_right₀ one_lt_two (sub_one_lt e)
    linarith
  · have h_gap := zpow_le_abs_sub h_le (h_x ▸ h_y ▸ Ne.symm h_ne)
    rw [← h_x, ← h_y, abs_sub_comm] at h_gap
    have h_lt : (2 : ℚ) ^ (e' - 1) < 2 ^ e' := zpow_lt_zpow_right₀ one_lt_two (sub_one_lt e')
    linarith

end Rounds

/-! ### Grids -/

/-- **The nearest integer,** and of two equally near ones the even one. -/
structure RoundsToInt (r : ℚ) (n : ℕ) : Prop where
  le_half : |r - n| ≤ 1 / 2
  even : |r - n| = 1 / 2 → Even n

namespace RoundsToInt

variable {r : ℚ} {n : ℕ}

theorem below (h_le : n ≤ r) (h_lt : r < n + 1 / 2) : RoundsToInt r n := by
  have h_abs : |r - n| = r - n := abs_of_nonneg (sub_nonneg.2 h_le)
  refine ⟨?_, fun h_half => ?_⟩ <;> rw [h_abs] at *
  · linarith
  · linarith

theorem above (h_lt : n + 1 / 2 < r) (h_le : r ≤ n + 1) : RoundsToInt r (n + 1) := by
  have h_abs : |r - (n + 1 : ℕ)| = n + 1 - r := by
    rw [abs_sub_comm]
    push_cast
    exact abs_of_nonneg (sub_nonneg.2 h_le)
  refine ⟨?_, fun h_half => ?_⟩ <;> rw [h_abs] at *
  · linarith
  · linarith

/-- The even one of the two around a tie. -/
theorem tie (h : r = n + 1 / 2) : RoundsToInt r (n + n % 2) := by
  rcases Nat.mod_two_eq_zero_or_one n with h_mod | h_mod
  · rw [h_mod, add_zero, h]
    refine ⟨?_, fun _ => Nat.even_iff.2 h_mod⟩
    rw [add_sub_cancel_left, abs_of_pos one_half_pos]
  · rw [h_mod, h]
    refine ⟨?_, fun _ => (Nat.odd_iff.2 h_mod).add_one⟩
    push_cast
    rw [add_sub_add_left_eq_sub, abs_sub_comm, abs_of_nonneg (by norm_num)]
    norm_num

/-- Any other integer is half a unit away at least. -/
theorem half_le_abs_sub (h : RoundsToInt r n) {k : ℤ} (h_ne : k ≠ n) : 1 / 2 ≤ |r - k| := by
  have h_one : (1 : ℚ) ≤ |(k : ℚ) - n| := by
    exact_mod_cast Int.one_le_abs (sub_ne_zero.2 h_ne)
  have h_apart := abs_sub_le (k : ℚ) r n
  rw [abs_sub_comm (k : ℚ) r] at h_apart
  linarith [h.le_half]

theorem le_abs_sub (h : RoundsToInt r n) (k : ℤ) : |r - n| ≤ |r - k| := by
  by_cases h_eq : k = n
  · rw [h_eq, Int.cast_natCast]
  · exact h.le_half.trans (h.half_le_abs_sub h_eq)

/-- An integer that is not passed before is not passed by rounding. -/
theorem le_of_le (h : RoundsToInt r n) {k : ℕ} (h_le : r ≤ k) : n ≤ k := by
  by_contra h_lt
  have h_succ : (k : ℚ) + 1 ≤ n := by exact_mod_cast Nat.lt_of_not_le h_lt
  have h_half := h.le_half
  rw [abs_le] at h_half
  linarith

theorem ge_of_ge (h : RoundsToInt r n) {k : ℕ} (h_le : (k : ℚ) ≤ r) : k ≤ n := by
  by_contra h_lt
  have h_succ : (n : ℚ) + 1 ≤ k := by exact_mod_cast Nat.lt_of_not_le h_lt
  have h_half := h.le_half
  rw [abs_le] at h_half
  linarith

end RoundsToInt

/-- **Integers can be rounded to.** -/
theorem exists_roundsToInt {r : ℚ} (h : 0 ≤ r) : ∃ n, RoundsToInt r n := by
  have h_le : (⌊r⌋₊ : ℚ) ≤ r := Nat.floor_le h
  have h_lt : r < ⌊r⌋₊ + 1 := Nat.lt_floor_add_one r
  rcases lt_trichotomy r (⌊r⌋₊ + 1 / 2) with h_below | h_tie | h_above
  · exact ⟨_, .below h_le h_below⟩
  · exact ⟨_, .tie h_tie⟩
  · exact ⟨_, .above h_above h_lt.le⟩

/-- **A number of the format is on the grid,** or below all that have 53 bits on it. -/
theorem IsBinary.onGrid_or_lt {y : ℚ} (h : IsBinary 53 (-1074) y) (u : ℤ) :
    (∃ k : ℤ, y = k * 2 ^ u) ∨ u ≠ -1074 ∧ y < 2 ^ 52 * 2 ^ u := by
  obtain ⟨m, e, h_m, h_e, rfl⟩ := h
  rcases le_or_gt u e with h_le | h_lt
  · obtain ⟨k, h_k⟩ := Int.eq_ofNat_of_zero_le (sub_nonneg.2 h_le)
    obtain rfl : e = u + k := by omega
    refine .inl ⟨m * 2 ^ k, ?_⟩
    rw [two_zpow_add]
    push_cast
    ring
  · refine .inr ⟨by omega, ?_⟩
    have h_int : (m : ℚ) < 2 ^ 53 := by exact_mod_cast (abs_lt.1 h_m).2
    have h_exp : (2 : ℚ) ^ e ≤ 2 ^ (u - 1) := zpow_le_zpow_right₀ one_le_two (by omega)
    calc (m : ℚ) * 2 ^ e < 2 ^ 53 * 2 ^ e := mul_lt_mul_of_pos_right h_int (two_zpow_pos e)
      _ ≤ 2 ^ 53 * 2 ^ (u - 1) := mul_le_mul_of_nonneg_left h_exp (by positivity)
      _ = 2 ^ 52 * 2 ^ u := by
        rw [zpow_sub_one₀ two_ne_zero]
        ring

/-- **Rounding on a grid.** The grid is fine enough for 53 bits, and the number has no less than
that many on it, unless there is no finer grid. Then the nearest number is a point of the grid. -/
theorem rounds_of_grid {r : ℚ} {n : ℕ} {u : ℤ} (h : RoundsToInt r n)
    (h_fine : r ≤ 2 ^ 53) (h_u : -1074 ≤ u) (h_coarse : u = -1074 ∨ 2 ^ 52 ≤ r) :
    Rounds (r * 2 ^ u) (n * 2 ^ u) := by
  have h_pos : (0 : ℚ) < 2 ^ u := two_zpow_pos u
  have h_scaled (k : ℚ) : |r * 2 ^ u - k * 2 ^ u| = |r - k| * 2 ^ u := by
    rw [← sub_mul, abs_mul, abs_of_pos h_pos]
  have h_n : n ≤ 2 ^ 53 := h.le_of_le (by exact_mod_cast h_fine)
  -- what is below all numbers of 53 bits is not as near as the first of them
  have h_below {y : ℚ} (h_u : u ≠ -1074) (h_y : y < 2 ^ 52 * 2 ^ u) :
      |r * 2 ^ u - n * 2 ^ u| < |r * 2 ^ u - y| := by
    have h_r := h_coarse.resolve_left h_u
    have h_first : |r - n| ≤ r - 2 ^ 52 := by
      have h_point := h.le_abs_sub (2 ^ 52)
      rwa [Int.cast_pow, Int.cast_ofNat, abs_of_nonneg (sub_nonneg.2 h_r)] at h_point
    have h_far : (r - 2 ^ 52) * 2 ^ u < r * 2 ^ u - y := by linarith
    rw [h_scaled]
    exact (mul_le_mul_of_nonneg_right h_first h_pos.le).trans_lt (h_far.trans_le (le_abs_self _))
  refine ⟨isBinary_of_le (by decide) h_n h_u, fun {y} h_y => ?_, fun {y} h_y h_same => ?_⟩
  · rcases h_y.onGrid_or_lt u with ⟨k, rfl⟩ | ⟨h_above, h_lt⟩
    · rw [h_scaled, h_scaled]
      exact mul_le_mul_of_nonneg_right (h.le_abs_sub k) h_pos.le
    · exact (h_below h_above h_lt).le
  · rcases h_y.onGrid_or_lt u with ⟨k, rfl⟩ | ⟨h_above, h_lt⟩
    · by_cases h_eq : k = n
      · exact .inl (by rw [h_eq, Int.cast_natCast])
      · rw [h_scaled, h_scaled] at h_same
        have h_dist := mul_right_cancel₀ h_pos.ne' h_same
        obtain ⟨half, h_half⟩ := h.even (h.le_half.antisymm (h_dist ▸ h.half_le_abs_sub h_eq))
        have h_double : (n : ℚ) * 2 ^ u = half * 2 ^ (u + 1) := by
          rw [h_half, zpow_add_one₀ two_ne_zero]
          push_cast
          ring
        exact .inr (h_double ▸ isBinary_of_le (by decide) (by omega) (by omega))
    · exact absurd h_same (h_below h_above h_lt).ne'

/-- **Every number can be rounded.** -/
theorem exists_rounds (q : ℚ) : ∃ x, Rounds q x := by
  -- the sign does not matter, and zero is a number of the format
  wlog h_pos : 0 < q generalizing q
  · rcases (not_lt.1 h_pos).eq_or_lt with rfl | h_neg
    · have h_grid := @rounds_of_grid 0 0 (-1074) ⟨by norm_num, by norm_num⟩ (by norm_num)
        le_rfl (.inl rfl)
      exact ⟨_, by simpa using h_grid⟩
    · obtain ⟨x, h_x⟩ := this (-q) (neg_pos.2 h_neg)
      exact ⟨-x, neg_neg q ▸ h_x.neg⟩
  have h_low : (2 : ℚ) ^ Int.log 2 q ≤ q := Int.zpow_log_le_self one_lt_two h_pos
  have h_high : q < (2 : ℚ) ^ (Int.log 2 q + 1) := Int.lt_zpow_succ_log_self one_lt_two q
  let u := max (Int.log 2 q - 52) (-1074)
  have h_q : q / 2 ^ u * 2 ^ u = q := div_mul_cancel₀ q (two_zpow_pos u).ne'
  have h_nonneg : 0 ≤ q / 2 ^ u := div_nonneg h_pos.le (two_zpow_pos u).le
  obtain ⟨n, h_n⟩ := exists_roundsToInt h_nonneg
  refine ⟨n * 2 ^ u, h_q ▸ rounds_of_grid h_n ?_ (le_max_right _ _) ?_⟩
  · rw [div_le_iff₀ (two_zpow_pos u), ← zpow_natCast, ← zpow_add₀ two_ne_zero]
    refine h_high.le.trans (zpow_le_zpow_right₀ one_le_two ?_)
    have h_left : Int.log 2 q - 52 ≤ u := le_max_left _ _
    push_cast
    omega
  · rcases max_cases (Int.log 2 q - 52) (-1074) with ⟨h_u, -⟩ | ⟨h_u, -⟩
    · right
      rw [le_div_iff₀ (two_zpow_pos u), ← zpow_natCast, ← zpow_add₀ two_ne_zero]
      refine le_trans (zpow_le_zpow_right₀ one_le_two ?_) h_low
      push_cast
      omega
    · exact .inl h_u

end PocketShell.Decimal
