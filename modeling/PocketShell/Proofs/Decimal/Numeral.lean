import Mathlib.Data.List.TakeWhile
import PocketShell.Decimal.Basic

/-!
# What a numeral is

`Decimal.IsNumeral` says which texts are numerals, and which decimals they denote: a sign, digits
with or without a point among them, and an exponent, of which only the digits may not be missing.
Reading finds exactly these (`Decimal.read?_eq_some_iff`). What is read first is taken as far as it
goes, so each part has a lemma that it ends where the next part begins.
-/

namespace PocketShell.Decimal

/-- Digits only. -/
def AreDigits (text : List Char) : Prop :=
  ∀ c ∈ text, c.isDigit = true

/-- **Signs:** is it a minus sign? -/
inductive IsSign : List Char → Bool → Prop where
  | none : IsSign [] false
  | plus : IsSign ['+'] false
  | minus : IsSign ['-'] true

/-- **Fractions,** with their digits. -/
inductive IsFraction : List Char → List Char → Prop where
  | none : IsFraction [] []
  | point {digits : List Char} : AreDigits digits → IsFraction ('.' :: digits) digits

/-- **Exponents,** with their values. -/
inductive IsExponent : List Char → ℤ → Prop where
  | none : IsExponent [] 0
  | signed {mark : Char} {sign digits : List Char} {negative : Bool} :
      mark = 'e' ∨ mark = 'E' → IsSign sign negative → digits ≠ [] → AreDigits digits →
      IsExponent (mark :: (sign ++ digits)) (if negative then -ofDigits digits else ofDigits digits)

/-- **Numerals,** with the decimals that they denote. -/
inductive IsNumeral : List Char → Decimal → Prop where
  | parts {sign whole point fraction last : List Char} {negative : Bool} {exponent : ℤ} :
      IsSign sign negative → AreDigits whole → IsFraction point fraction →
      whole ++ fraction ≠ [] → IsExponent last exponent →
      IsNumeral (sign ++ (whole ++ (point ++ last)))
        ⟨negative, ofDigits (whole ++ fraction), exponent - fraction.length⟩

/-! ### Digits -/

theorem areDigits_takeWhile (text : List Char) : AreDigits (text.takeWhile Char.isDigit) :=
  fun _ => List.mem_takeWhile_imp

/-- Digits are taken as far as they go. -/
theorem takeWhile_digits {whole last : List Char} (h : AreDigits whole)
    (h_last : ∀ c ∈ last.head?, c.isDigit = false) :
    (whole ++ last).takeWhile Char.isDigit = whole ∧
      (whole ++ last).dropWhile Char.isDigit = last := by
  rw [List.takeWhile_append_of_pos h, List.dropWhile_append_of_pos h]
  cases last with
  | nil => exact ⟨List.append_nil whole, rfl⟩
  | cons c last =>
    have h_c : ¬ c.isDigit = true := by simp [h_last c rfl]
    rw [List.takeWhile_cons_of_neg h_c, List.dropWhile_cons_of_neg h_c]
    exact ⟨List.append_nil whole, rfl⟩

/-! ### Signs -/

theorem isSign_readSign (text : List Char) :
    ∃ sign, IsSign sign (readSign text).1 ∧ text = sign ++ (readSign text).2 := by
  unfold readSign
  split
  · exact ⟨_, .minus, rfl⟩
  · exact ⟨_, .plus, rfl⟩
  · exact ⟨_, .none, rfl⟩

/-- A sign is read, if there is no other one behind it. -/
theorem readSign_append {sign last : List Char} {negative : Bool} (h : IsSign sign negative)
    (h_last : ∀ c ∈ last.head?, c ≠ '-' ∧ c ≠ '+') :
    readSign (sign ++ last) = (negative, last) := by
  cases h with
  | plus => rfl
  | minus => rfl
  | none =>
    rw [List.nil_append]
    unfold readSign
    split
    · exact absurd rfl (h_last _ rfl).1
    · exact absurd rfl (h_last _ rfl).2
    · rfl

theorem ne_sign_of_isDigit {c : Char} (h : c.isDigit = true) : c ≠ '-' ∧ c ≠ '+' := by
  constructor <;> rintro rfl <;> exact absurd h (by decide)

/-! ### Exponents -/

theorem readExponent?_eq_some_iff {text : List Char} {exponent : ℤ} :
    readExponent? text = some exponent ↔ IsExponent text exponent := by
  constructor
  · intro h
    cases text with
    | nil =>
      cases h
      exact .none
    | cons mark rest =>
      rw [readExponent?] at h
      split at h
      · next h_mark =>
        obtain ⟨sign, h_sign, h_rest⟩ := isSign_readSign rest
        generalize readSign rest = parts at h h_sign h_rest
        obtain ⟨negative, digits⟩ := parts
        subst h_rest
        cases digits with
        | nil => cases h
        | cons c cs =>
          dsimp only at h
          split at h
          · next h_all =>
            cases h
            exact .signed h_mark h_sign (List.cons_ne_nil c cs) (List.all_eq_true.1 h_all)
          · cases h
      · cases h
  · intro h
    cases h with
    | none => rfl
    | @signed mark sign digits negative h_mark h_sign h_some h_digits =>
      have h_read : readSign (sign ++ digits) = (negative, digits) := by
        refine readSign_append h_sign fun c h_c => ne_sign_of_isDigit (h_digits c ?_)
        exact List.mem_of_mem_head? h_c
      obtain ⟨c, cs, rfl⟩ := List.exists_cons_of_ne_nil h_some
      rw [readExponent?, if_pos h_mark, h_read]
      dsimp only
      rw [if_pos (List.all_eq_true.2 h_digits)]

theorem IsExponent.head?_not_isDigit {text : List Char} {exponent : ℤ}
    (h : IsExponent text exponent) : ∀ c ∈ text.head?, c.isDigit = false ∧ c ≠ '.' := by
  cases h with
  | none => exact fun c h_c => nomatch h_c
  | signed h_mark _ _ _ =>
    intro c h_c
    obtain rfl := Option.mem_some_iff.1 h_c
    rcases h_mark with rfl | rfl <;> decide

/-! ### Numerals -/

theorem isFraction_readFraction (text : List Char) :
    ∃ point, IsFraction point (readFraction text).1 ∧ text = point ++ (readFraction text).2 := by
  unfold readFraction
  split
  · next rest =>
    refine ⟨_, .point (areDigits_takeWhile rest), ?_⟩
    rw [List.cons_append, List.takeWhile_append_dropWhile]
  · exact ⟨_, .none, rfl⟩

theorem readFraction_append {point fraction last : List Char} {exponent : ℤ}
    (h : IsFraction point fraction) (h_last : IsExponent last exponent) :
    readFraction (point ++ last) = (fraction, last) := by
  have h_head := h_last.head?_not_isDigit
  cases h with
  | none =>
    rw [List.nil_append]
    unfold readFraction
    split
    · exact absurd rfl (h_head _ rfl).2
    · rfl
  | point h_digits =>
    obtain ⟨h_take, h_drop⟩ := takeWhile_digits h_digits fun c h_c => (h_head c h_c).1
    rw [List.cons_append, readFraction, h_take, h_drop]

/-- Digits end where a point or an exponent begins. -/
theorem IsFraction.head?_not_isDigit {point fraction last : List Char} {exponent : ℤ}
    (h : IsFraction point fraction) (h_last : IsExponent last exponent) :
    ∀ c ∈ (point ++ last).head?, c.isDigit = false := by
  cases h with
  | none => exact fun c h_c => (h_last.head?_not_isDigit c h_c).1
  | point _ =>
    intro c h_c
    obtain rfl := Option.mem_some_iff.1 h_c
    decide

/-- Behind the sign there are digits, or a point and digits. -/
theorem AreDigits.head?_ne_sign {whole point fraction last : List Char}
    (h : AreDigits whole) (h_point : IsFraction point fraction) (h_some : whole ++ fraction ≠ []) :
    ∀ c ∈ (whole ++ (point ++ last)).head?, c ≠ '-' ∧ c ≠ '+' := by
  intro c h_c
  cases whole with
  | cons first whole =>
    obtain rfl := Option.mem_some_iff.1 h_c
    exact ne_sign_of_isDigit (h first List.mem_cons_self)
  | nil =>
    cases h_point with
    | none => exact absurd rfl h_some
    | point _ =>
      obtain rfl := Option.mem_some_iff.1 h_c
      decide

/-- **Reading finds the numerals.** -/
theorem read?_eq_some_iff {text : List Char} {decimal : Decimal} :
    read? text = some decimal ↔ IsNumeral text decimal := by
  constructor
  · intro h
    obtain ⟨sign, h_sign, h_text⟩ := isSign_readSign text
    unfold read? at h
    generalize readSign text = parts at h h_sign h_text
    obtain ⟨negative, rest⟩ := parts
    dsimp only at h h_sign h_text
    obtain ⟨point, h_point, h_rest⟩ := isFraction_readFraction (rest.dropWhile Char.isDigit)
    generalize readFraction (rest.dropWhile Char.isDigit) = parts at h h_point h_rest
    obtain ⟨fraction, last⟩ := parts
    dsimp only at h h_point h_rest
    have h_whole := List.takeWhile_append_dropWhile (p := Char.isDigit) (l := rest)
    split at h
    · cases h
    · next h_some =>
      obtain ⟨exponent, h_exponent, rfl⟩ := Option.map_eq_some_iff.1 h
      have h_parts : text = sign ++ (rest.takeWhile Char.isDigit ++ (point ++ last)) := by
        rw [← h_rest, h_whole, h_text]
      rw [h_parts]
      refine .parts h_sign (areDigits_takeWhile rest) h_point ?_
        (readExponent?_eq_some_iff.1 h_exponent)
      simpa [List.append_eq_nil_iff] using h_some
  · intro h
    cases h with
    | @parts sign whole point fraction last negative exponent h_sign h_whole h_point h_some
        h_last =>
      have h_read : readSign (sign ++ (whole ++ (point ++ last))) = (negative, _) :=
        readSign_append h_sign (h_whole.head?_ne_sign h_point h_some)
      obtain ⟨h_take, h_drop⟩ := takeWhile_digits h_whole (h_point.head?_not_isDigit h_last)
      have h_parts : ¬ (whole.isEmpty && fraction.isEmpty) = true := by
        simpa [List.append_eq_nil_iff] using h_some
      unfold read?
      rw [h_read]
      dsimp only
      rw [h_take, h_drop, readFraction_append h_point h_last]
      dsimp only
      rw [if_neg h_parts, readExponent?_eq_some_iff.2 h_last]
      rfl

/-- A word that begins with none of the characters of a numeral is not read. -/
theorem read?_append_eq_none {sign word : List Char} {negative : Bool} (h : IsSign sign negative)
    (h_digit : ∀ c ∈ word.head?, c.isDigit = false)
    (h_mark : ∀ c ∈ word.head?, c ≠ '.' ∧ c ≠ '-' ∧ c ≠ '+') : read? (sign ++ word) = none := by
  have h_read := readSign_append h fun c h_c => (h_mark c h_c).2
  obtain ⟨h_take, h_drop⟩ := @takeWhile_digits [] word (fun c h_c => nomatch h_c) h_digit
  rw [List.nil_append] at h_take h_drop
  have h_point : readFraction word = ([], word) := by
    unfold readFraction
    split
    · exact absurd rfl (h_mark _ rfl).1
    · rfl
  unfold read?
  rw [h_read]
  dsimp only
  rw [h_take, h_drop, h_point]
  rfl

theorem ofDigits_digits (n : ℕ) : ofDigits (digits n) = n := by
  have h_chars := @Nat.ofDigitChars_ten_toDigits n
  rwa [Nat.ofDigitChars_eq_foldl] at h_chars

/-- The digits of a natural number are a numeral for it. -/
theorem isNumeral_digits (n : ℕ) : IsNumeral (digits n) ⟨false, n, 0⟩ := by
  have h_digits : AreDigits (digits n) :=
    fun c h_c => Nat.isDigit_of_mem_toDigits (by decide) (by decide) h_c
  have h_some : digits n ++ [] ≠ [] := by
    rw [List.append_nil]
    exact Nat.toDigits_ne_nil
  have h_parts := IsNumeral.parts .none h_digits .none h_some .none
  rwa [List.append_nil, List.append_nil, List.nil_append, ofDigits_digits] at h_parts

end PocketShell.Decimal
