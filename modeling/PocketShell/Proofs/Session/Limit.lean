import Mathlib.Data.Rat.Floor
import PocketShell.Proofs.Decimal.Numeral
import PocketShell.Proofs.Decimal.Rounding
import PocketShell.Session.Basic

/-!
# The limit of the history

How many lines a session remembers is what the text of a variable stands for. `History.IsLimit` says
so of the text alone: a number below zero is no limit, any other number stands for its integral
part, and what is no number stands for zero. Numbers are rounded to the nearest of the binary64
format first, which matters from `2 ^ 53` on only (`History.isLimit_digits`).

`Session.historyLimit_eq_iff` is that a session has this limit and no other. The text is read as a
decimal (`Decimal.read?_eq_some_iff`), the decimal is rounded to the nearest
(`Decimal.exists_stands_toFloat`), and `History.limitOf` compares the result with zero and cuts off
its fraction (`History.limitOf_toFloat`).
-/

open Float.Model Float.Model.UnpackedFloat

namespace PocketShell

namespace History

/-- The words for an infinite number, in letters of any case. -/
def IsInfinite (word : List Char) : Prop :=
  String.ofList (word.map Char.toLower) = "inf" ∨
    String.ofList (word.map Char.toLower) = "infinity"

/-- **The limit that a text stands for.** The text of a number below zero is no limit. Any other
number, rounded to the nearest that the format has, stands for its integral part, or for the largest
64-bit word if that is smaller. What is no number stands for the limit zero. -/
inductive IsLimit : List Char → Option ℕ → Prop where
  | numeral {text : List Char} {decimal : Decimal} {x : ℚ} :
      Decimal.IsNumeral text decimal → Decimal.Rounds decimal.value x →
      IsLimit text (if x < 0 then none else some (min ⌊x⌋₊ (2 ^ 64 - 1)))
  | infinite {sign word : List Char} {negative : Bool} :
      Decimal.IsSign sign negative → IsInfinite word →
      IsLimit (sign ++ word) (if negative then none else some (2 ^ 64 - 1))
  | other {text : List Char} :
      (∀ decimal, ¬ Decimal.IsNumeral text decimal) →
      (∀ sign negative word, Decimal.IsSign sign negative → IsInfinite word →
        text ≠ sign ++ word) →
      IsLimit text (some 0)

/-- Every text stands for a limit. -/
theorem exists_isLimit (text : List Char) : ∃ limit, IsLimit text limit := by
  by_cases h_numeral : ∃ decimal, Decimal.IsNumeral text decimal
  · obtain ⟨decimal, h_decimal⟩ := h_numeral
    obtain ⟨x, h_x⟩ := Decimal.exists_rounds decimal.value
    exact ⟨_, .numeral h_decimal h_x⟩
  · by_cases h_word : ∃ sign negative word, Decimal.IsSign sign negative ∧ IsInfinite word ∧
      text = sign ++ word
    · obtain ⟨sign, negative, word, h_sign, h_word, rfl⟩ := h_word
      exact ⟨_, .infinite h_sign h_word⟩
    · refine ⟨_, .other (fun decimal h => h_numeral ⟨decimal, h⟩) ?_⟩
      exact fun sign negative word h_sign h_infinite h_text =>
        h_word ⟨sign, negative, word, h_sign, h_infinite, h_text⟩

/-- **Natural numbers** stand for themselves. -/
theorem isLimit_digits {n : ℕ} (h : n ≤ 2 ^ 53) : IsLimit (Decimal.digits n) (some n) := by
  obtain ⟨x, h_x⟩ := Decimal.exists_rounds (Decimal.value ⟨false, n, 0⟩)
  have h_limit := IsLimit.numeral (Decimal.isNumeral_digits n) h_x
  have h_value : Decimal.value ⟨false, n, 0⟩ = n := by simp [Decimal.value]
  rw [h_value] at h_x
  obtain rfl := h_x.eq_of_isBinary (Decimal.isBinary_natCast h)
  have h_nonneg : ¬ (n : ℚ) < 0 := not_lt.2 (Nat.cast_nonneg n)
  rwa [if_neg h_nonneg, Nat.floor_natCast, min_eq_left (h.trans (by decide))] at h_limit

/-! ### Numbers of the format -/

variable {value : Float} {s : Sign} {x : ℚ}

theorem nonneg_iff (value : Float) :
    0 ≤ value ↔ (UnpackedFloat.zero .positive).le value.toModel.unpack = true := by
  show decide _ = true ↔ _
  exact decide_eq_true_iff

theorem nonneg_of_stands {f : UnpackedFloat} (h : Decimal.Stands s f x) : 0 ≤ x := by
  cases h with
  | zero => exact le_rfl
  | finite => exact mul_nonneg (Nat.cast_nonneg _) (Decimal.two_zpow_pos _).le
  | infinity h_x => exact (by positivity : (0 : ℚ) ≤ 2 ^ 1024).trans h_x

/-- Only zero stands for zero. -/
theorem eq_zero_of_stands {f : UnpackedFloat} (h : Decimal.Stands s f 0) : f = .zero s := by
  generalize h_x : (0 : ℚ) = x at h
  cases h with
  | zero => rfl
  | @finite m e h_pos =>
    have h_m : (m : ℚ) ≠ 0 := by exact_mod_cast h_pos.ne'
    exact absurd h_x.symm (mul_ne_zero h_m (Decimal.two_zpow_pos e).ne')
  | infinity h_large => exact absurd h_large (by rw [← h_x]; norm_num)

/-- **The integral part** is what is left of the mantissa in front of the point. -/
theorem toInt_finite (least largest : ℤ) {m : ℕ} {e : ℤ} (h_pos : 0 < m) :
    UnpackedFloat.toInt least largest (.finite .positive m e h_pos) =
      (⌊(m : ℚ) * 2 ^ e⌋₊ : ℤ) := by
  have h_place : ∃ k : ℕ, e - ((e - 0).toNat : ℤ) = -k := by
    obtain ⟨k, h_k⟩ := Int.eq_ofNat_of_zero_le (a := (e - 0).toNat - e) (by omega)
    exact ⟨k, by omega⟩
  change UnpackedFloat.roundToInt .positive m e = _
  unfold UnpackedFloat.roundToInt UnpackedFloat.decreaseExponent UnpackedFloat.shiftToExponent
  dsimp only
  generalize (e - 0).toNat = a at h_place
  obtain ⟨k, h_k⟩ := h_place
  have h_shows : Decimal.Shows (.ofMantissaAndAccuracy (m <<< a) .exact) ((m <<< a : ℕ) : ℚ) := rfl
  have h_value : (m : ℚ) * 2 ^ e = (m <<< a : ℕ) / 2 ^ k := by
    obtain rfl : e = -k + a := by omega
    rw [Decimal.two_zpow_add, Nat.shiftLeft_eq, zpow_neg, zpow_natCast]
    push_cast
    ring
  have h_bounds := (h_shows.shiftRight k).bounds
  rw [← h_value] at h_bounds
  have h_shift : (0 - -(k : ℤ)).toNat = k := by omega
  rw [h_k, h_shift]
  have h_floor := (Nat.floor_eq_iff ((Nat.cast_nonneg _).trans h_bounds.1)).2 h_bounds
  rw [h_floor]
  rfl

theorem toNat_ofNatClamp (n : ℕ) : (UInt64.ofNatClamp n).toNat = min n (2 ^ 64 - 1) := by
  unfold UInt64.ofNatClamp
  split
  · next h_lt =>
    have h_size : n < 2 ^ 64 := h_lt
    rw [UInt64.toNat_ofNatLT]
    omega
  · next h_ge =>
    have h_size : ¬ n < 2 ^ 64 := h_ge
    rw [UInt64.toNat_ofNatLT]
    show 2 ^ 64 - 1 = _
    omega

theorem toNat_toUInt64 (value : Float) : value.toUInt64.toNat =
    min (UnpackedFloat.toInt 0 (2 ^ 64 - 1) value.toModel.unpack).toNat (2 ^ 64 - 1) :=
  toNat_ofNatClamp _

/-- **The limit of a number** that is not below zero. -/
theorem limitOf_of_stands (h : Decimal.Stands .positive value.toModel.unpack x) :
    limitOf value = some (min ⌊x⌋₊ (2 ^ 64 - 1)) := by
  have h_word := toNat_toUInt64 value
  have h_nonneg := nonneg_iff value
  generalize value.toModel.unpack = f at h h_word h_nonneg
  unfold limitOf
  cases h with
  | zero =>
    rw [if_pos (h_nonneg.2 rfl), h_word, Nat.floor_zero]
    rfl
  | finite =>
    rw [if_pos (h_nonneg.2 rfl), h_word, toInt_finite, Int.toNat_natCast]
  | infinity h_x =>
    -- what is infinite in the format is beyond all words too
    have h_large : (2 : ℚ) ^ 64 ≤ x :=
      (pow_le_pow_right₀ one_le_two (by decide : 64 ≤ 1024)).trans h_x
    have h_floor : 2 ^ 64 ≤ ⌊x⌋₊ := Nat.le_floor (by exact_mod_cast h_large)
    rw [if_pos (h_nonneg.2 rfl), h_word, Nat.min_eq_right (by omega : 2 ^ 64 - 1 ≤ ⌊x⌋₊)]
    rfl

/-- **There is no limit** for a number below zero. -/
theorem limitOf_of_stands_negative (h : Decimal.Stands .negative value.toModel.unpack x) :
    limitOf value = if x = 0 then some 0 else none := by
  have h_word := toNat_toUInt64 value
  have h_nonneg := nonneg_iff value
  generalize value.toModel.unpack = f at h h_word h_nonneg
  unfold limitOf
  by_cases h_x : x = 0
  · subst h_x
    obtain rfl := eq_zero_of_stands h
    rw [if_pos (h_nonneg.2 rfl), if_pos rfl, h_word]
    rfl
  · -- the sign alone decides
    have h_below : ¬ (UnpackedFloat.zero .positive).le f = true := by
      cases h with
      | zero => exact absurd rfl h_x
      | finite => exact Bool.false_ne_true
      | infinity => exact Bool.false_ne_true
    rw [if_neg fun h => h_below (h_nonneg.1 h), if_neg h_x]

/-- **The limit of a numeral.** -/
theorem limitOf_toFloat {decimal : Decimal} (h : Decimal.Rounds decimal.value x) :
    limitOf decimal.toFloat = if x < 0 then none else some (min ⌊x⌋₊ (2 ^ 64 - 1)) := by
  obtain ⟨y, h_y, h_stands⟩ := Decimal.exists_stands_toFloat decimal
  have h_nonneg := nonneg_of_stands h_stands
  obtain rfl := h.unique h_y
  cases h_sign : decimal.negative with
  | false =>
    simp only [h_sign, Bool.false_eq_true, if_false, one_mul] at h_stands ⊢
    rw [limitOf_of_stands h_stands, if_neg h_nonneg.not_gt]
  | true =>
    simp only [h_sign, if_true, neg_one_mul, neg_lt_zero] at h_stands ⊢
    rw [limitOf_of_stands_negative h_stands]
    rcases h_nonneg.eq_or_lt with rfl | h_pos
    · simp
    · rw [if_neg h_pos.ne', if_pos h_pos]

end History

/-! ### Texts -/

namespace Environment

variable {env : Environment} {key : String}

/-- A numeral is read as its number. -/
theorem number_of_isNumeral {decimal : Decimal}
    (h : Decimal.IsNumeral (Text.trim (env.get key)).toList decimal) :
    env.number key = decimal.toFloat := by
  obtain ⟨x, -, h_stands⟩ := Decimal.exists_stands_toFloat decimal
  have h_number : decimal.toFloat.isNaN = false := by
    show decimal.toFloat.toModel.unpack.isNaN = false
    generalize decimal.toFloat.toModel.unpack = f at h_stands
    cases h_stands <;> rfl
  unfold number readFloat?
  rw [Decimal.read?_eq_some_iff.2 h]
  dsimp only
  rw [h_number]
  rfl

theorem toLower_of_isDigit {c : Char} (h : c.isDigit = true) : c.toLower = c := by
  have h_digit : c.val ≤ 57 := of_decide_eq_true (Bool.and_eq_true_iff.1 h).2
  have h_lower : ¬ (c.val ≥ 65 ∧ c.val ≤ 90) := by
    rintro ⟨h_letter, -⟩
    exact absurd (UInt32.le_trans h_letter h_digit) (by decide)
  exact dif_neg h_lower

/-- The words for an infinite number begin with a letter, so they are no numerals. -/
theorem read?_of_isInfinite {sign word : List Char} {negative : Bool}
    (h_sign : Decimal.IsSign sign negative) (h_word : History.IsInfinite word) :
    Decimal.read? (sign ++ word) = none ∧ Decimal.readSign (sign ++ word) = (negative, word) := by
  have h_first : ∀ c ∈ word.head?, c.toLower = 'i' := by
    intro c h_c
    cases word with
    | nil => cases h_c
    | cons first word =>
      obtain rfl := Option.mem_some_iff.1 h_c
      rcases h_word with h_eq | h_eq
      · exact (List.cons.inj (String.ofList_inj.1 h_eq : _ = ['i', 'n', 'f'])).1
      · exact (List.cons.inj
          (String.ofList_inj.1 h_eq : _ = ['i', 'n', 'f', 'i', 'n', 'i', 't', 'y'])).1
  have h_digit : ∀ c ∈ word.head?, c.isDigit = false := by
    intro c h_c
    refine Bool.eq_false_iff.2 fun h_isDigit => ?_
    have h_same : c.toLower = c := toLower_of_isDigit h_isDigit
    rw [h_first c h_c] at h_same
    subst h_same
    exact absurd h_isDigit (by decide)
  have h_mark : ∀ c ∈ word.head?, c ≠ '.' ∧ c ≠ '-' ∧ c ≠ '+' := by
    intro c h_c
    refine ⟨?_, ?_, ?_⟩ <;> rintro rfl <;> exact absurd (h_first _ h_c) (by decide)
  exact ⟨Decimal.read?_append_eq_none h_sign h_digit h_mark,
    Decimal.readSign_append h_sign fun c h_c => (h_mark c h_c).2⟩

theorem number_of_isInfinite {sign word : List Char} {negative : Bool}
    (h_sign : Decimal.IsSign sign negative) (h_word : History.IsInfinite word)
    (h_text : (Text.trim (env.get key)).toList = sign ++ word) :
    env.number key =
      if negative then -Float.ofBits 0x7FF0000000000000 else Float.ofBits 0x7FF0000000000000 := by
  obtain ⟨h_read, h_split⟩ := read?_of_isInfinite h_sign h_word
  unfold number readFloat?
  rw [h_text, h_read, h_split]
  dsimp only
  have h_special : specialFloat? (String.ofList (word.map Char.toLower)) =
      some (Float.ofBits 0x7FF0000000000000) := if_pos h_word
  rw [h_special]
  cases negative <;> rfl

/-- What is no number is read as zero. -/
theorem number_of_other
    (h_numeral : ∀ decimal, ¬ Decimal.IsNumeral (Text.trim (env.get key)).toList decimal)
    (h_word : ∀ sign negative word, Decimal.IsSign sign negative → History.IsInfinite word →
      (Text.trim (env.get key)).toList ≠ sign ++ word) : env.number key = 0 := by
  have h_read : Decimal.read? (Text.trim (env.get key)).toList = none :=
    Option.eq_none_iff_forall_ne_some.2 fun decimal h =>
      h_numeral decimal (Decimal.read?_eq_some_iff.1 h)
  obtain ⟨sign, h_sign, h_text⟩ := Decimal.isSign_readSign (Text.trim (env.get key)).toList
  unfold number readFloat?
  rw [h_read]
  generalize Decimal.readSign (Text.trim (env.get key)).toList = parts at h_sign h_text ⊢
  obtain ⟨negative, word⟩ := parts
  have h_other : ¬ History.IsInfinite word := fun h => h_word _ _ _ h_sign h h_text
  dsimp only
  have h_special : specialFloat? (String.ofList (word.map Char.toLower)) =
      if String.ofList (word.map Char.toLower) = "nan" then some (Float.ofBits 0x7FF8000000000000)
      else none := if_neg h_other
  rw [h_special]
  by_cases h_nan : String.ofList (word.map Char.toLower) = "nan"
  · rw [if_pos h_nan]
    cases negative <;> rfl
  · rw [if_neg h_nan]
    rfl

end Environment

namespace Session

theorem historyLimit_of_isLimit {session : Session} {limit : Option ℕ}
    (h : History.IsLimit
      (Text.trim (session.env.get Environment.historyMaxName)).toList limit) :
    session.historyLimit = limit := by
  unfold historyLimit
  generalize h_text : (Text.trim (session.env.get Environment.historyMaxName)).toList = text at h
  cases h with
  | numeral h_decimal h_x =>
    subst h_text
    rw [Environment.number_of_isNumeral h_decimal, History.limitOf_toFloat h_x]
  | @infinite sign word negative h_sign h_word =>
    rw [Environment.number_of_isInfinite h_sign h_word h_text]
    cases negative <;> decide +kernel
  | other h_numeral h_word =>
    subst h_text
    rw [Environment.number_of_other h_numeral h_word]
    decide +kernel

/-- **The limit of a session** is what the text of its variable stands for. -/
theorem historyLimit_eq_iff (session : Session) (limit : Option ℕ) :
    session.historyLimit = limit ↔
      History.IsLimit (Text.trim (session.env.get Environment.historyMaxName)).toList limit := by
  refine ⟨?_, historyLimit_of_isLimit⟩
  rintro rfl
  obtain ⟨limit, h_limit⟩ := History.exists_isLimit
    (Text.trim (session.env.get Environment.historyMaxName)).toList
  rwa [historyLimit_of_isLimit h_limit]

end Session

end PocketShell
