import Mathlib.Data.List.DropRight
import PocketShell.Text.Blank

/-!
# Trimming

Trimming takes away the blanks at the end of a text (`Text.trimEnd`) and those at its beginning. A
text without blanks at its ends is **solid**; it is kept, and shields what stands behind it from
trimming at the left:

* `Text.trim_append` — trimming a line that begins with a solid text takes away blanks at its end
  only;
* `Text.trim_trimEnd` — blanks that are taken away at the end are no loss where the rest is trimmed
  later;
* `Text.trimBlanks_append_blank` — trimming keeps a text that is not blank at the beginning of a
  line.
-/

namespace PocketShell.Text

/-! ### One end -/

/-- A text without the blanks at its end. -/
def trimEnd (text : String) : String :=
  String.ofList (text.toList.rdropWhile isBlank)

@[simp] theorem toList_trimEnd (text : String) :
    (trimEnd text).toList = text.toList.rdropWhile isBlank := by
  simp [trimEnd]

theorem trimBlanks_eq (cs : List Char) :
    trimBlanks cs = (cs.dropWhile isBlank).rdropWhile isBlank := rfl

/-- From the right, dropping blanks stops at a front that has none at its end. -/
theorem rdropWhile_append_of_kept {front : List Char} (h : front.rdropWhile isBlank = front)
    (rest : List Char) :
    (front ++ rest).rdropWhile isBlank = front ++ rest.rdropWhile isBlank := by
  have h_reverse : front.reverse.dropWhile isBlank = front.reverse := by
    rw [← List.reverse_inj, List.reverse_reverse]
    exact h
  rw [List.rdropWhile, List.reverse_append, List.dropWhile_append, h_reverse, List.rdropWhile]
  split
  · next h_empty =>
    rw [List.isEmpty_iff.1 h_empty, List.reverse_nil, List.append_nil, List.reverse_reverse]
  · simp

theorem rdropWhile_append_of_blank (front : List Char) {blanks : List Char}
    (h : ∀ c ∈ blanks, isBlank c = true) :
    (front ++ blanks).rdropWhile isBlank = front.rdropWhile isBlank := by
  rw [List.rdropWhile, List.reverse_append,
    List.dropWhile_append_of_pos fun c h_mem => h c (List.mem_reverse.1 h_mem), List.rdropWhile]

/-- What is left without the blanks at the end begins as it did. -/
theorem mem_head?_of_rdropWhile {c : Char} {cs : List Char}
    (h : c ∈ (cs.rdropWhile isBlank).head?) : c ∈ cs.head? := by
  obtain ⟨rest, h_rest⟩ := List.rdropWhile_prefix isBlank cs
  rw [← h_rest, List.head?_append, Option.mem_def.1 h, Option.some_or]
  rfl

/-- Taking blanks away at the end first makes no difference to trimming. -/
theorem trimBlanks_rdropWhile (cs : List Char) :
    trimBlanks (cs.rdropWhile isBlank) = trimBlanks cs := by
  let kept := cs.rdropWhile isBlank
  let blanks := cs.rtakeWhile isBlank
  have h_split : kept ++ blanks = cs := List.rdropWhile_append_rtakeWhile
  have h_blanks : ∀ c ∈ blanks, isBlank c = true := fun _ => List.mem_rtakeWhile_imp
  show trimBlanks kept = trimBlanks cs
  rw [← h_split, trimBlanks_eq, trimBlanks_eq, List.dropWhile_append]
  split
  · next h_empty =>
    -- there is nothing but blanks
    have h_nil : blanks.dropWhile isBlank = [] := List.dropWhile_eq_nil_iff.2 h_blanks
    rw [List.isEmpty_iff.1 h_empty, h_nil]
  · exact (rdropWhile_append_of_blank _ h_blanks).symm

theorem trim_trimEnd (text : String) : trim (trimEnd text) = trim text := by
  rw [trim, toList_trimEnd, trimBlanks_rdropWhile, trim]

/-- Blanks in front are trimmed away. -/
theorem trim_append_of_blank {blanks : String} (h : ∀ c ∈ blanks.toList, isBlank c = true)
    (text : String) : trim (blanks ++ text) = trim text := by
  apply String.toList_inj.1
  rw [toList_trim, toList_trim, String.toList_append, trimBlanks_eq, trimBlanks_eq,
    List.dropWhile_append_of_pos h]

theorem trim_blank_append (text : String) : trim (" " ++ text) = trim text :=
  trim_append_of_blank (List.forall_mem_singleton.2 (by decide)) text

/-! ### Solid texts -/

/-- **Solid texts.** They neither begin nor end with a blank, and are not empty. -/
structure Solid (text : String) : Prop where
  ne_empty : text ≠ ""
  /-- The text does not begin with a blank. -/
  first : ∀ c ∈ text.toList.head?, isBlank c = false
  /-- The text does not end with a blank. -/
  last : ∀ c ∈ text.toList.getLast?, isBlank c = false

theorem Solid.of_not_blank {text : String} (h_some : text ≠ "")
    (h : ∀ c ∈ text.toList, isBlank c = false) : Solid text where
  ne_empty := h_some
  first c h_c := h c (List.mem_of_mem_head? h_c)
  last c h_c := h c (List.mem_of_getLast? h_c)

/-- What trimming leaves is solid, if it leaves anything. -/
theorem solid_trim {text : String} (h : trim text ≠ "") : Solid (trim text) where
  ne_empty := h
  first c h_c := by
    rw [toList_trim, trimBlanks_eq] at h_c
    have h_head : (text.toList.dropWhile isBlank).head? = some c := mem_head?_of_rdropWhile h_c
    have h_kept := List.head?_dropWhile_not isBlank text.toList
    rw [h_head] at h_kept
    exact h_kept
  last c h_c := by
    rw [toList_trim, trimBlanks_eq] at h_c
    obtain ⟨h_some, rfl⟩ := List.mem_getLast?_eq_getLast h_c
    exact Bool.not_eq_true _ ▸ List.rdropWhile_last_not _ _ h_some

theorem mem_of_mem_trim {c : Char} {text : String} (h : c ∈ (trim text).toList) :
    c ∈ text.toList := by
  rw [toList_trim, trimBlanks_eq] at h
  exact (List.dropWhile_sublist _).subset ((List.rdropWhile_prefix _ _).subset h)

theorem Solid.rdropWhile_eq {text : String} (h : Solid text) :
    text.toList.rdropWhile isBlank = text.toList := by
  refine List.rdropWhile_eq_self_iff.2 fun h_some => ?_
  rw [h.last _ (List.getLast?_eq_some_getLast h_some)]
  exact Bool.false_ne_true

/-- **Trimming behind a solid text** is trimming at the end. -/
theorem trim_append {front : String} (h : Solid front) (rest : String) :
    trim (front ++ rest) = front ++ trimEnd rest := by
  apply String.toList_inj.1
  have h_left : (front.toList ++ rest.toList).dropWhile isBlank =
      front.toList ++ rest.toList := by
    cases h_front : front.toList with
    | nil => exact absurd (String.toList_eq_nil_iff.1 h_front) h.ne_empty
    | cons c cs =>
      have h_first : isBlank c = false := h.first c (by rw [h_front]; rfl)
      rw [List.cons_append, List.dropWhile_cons_of_neg (Bool.eq_false_iff.1 h_first)]
  rw [toList_trim, String.toList_append, String.toList_append, toList_trimEnd, trimBlanks_eq,
    h_left, rdropWhile_append_of_kept h.rdropWhile_eq]

/-- A solid text is kept as it is. -/
theorem Solid.trim_eq {text : String} (h : Solid text) : trim text = text := by
  have h_trim := trim_append h ""
  rwa [String.append_empty, show trimEnd "" = "" from rfl, String.append_empty] at h_trim

/-- A text that stands between two solid ones does not matter. -/
theorem Solid.append {front back : String} (h_front : Solid front) (h_back : Solid back)
    (middle : String) : Solid (front ++ middle ++ back) where
  ne_empty := by simp [h_front.ne_empty]
  first c h_c := by
    refine h_front.first c ?_
    cases h_list : front.toList with
    | nil => exact absurd (String.toList_eq_nil_iff.1 h_list) h_front.ne_empty
    | cons d ds => simpa [h_list] using h_c
  last c h_c := by
    refine h_back.last c ?_
    rw [String.toList_append] at h_c
    cases h_list : back.toList with
    | nil => exact absurd (String.toList_eq_nil_iff.1 h_list) h_back.ne_empty
    | cons d ds =>
      rw [h_list, List.getLast?_append_cons] at h_c
      exact h_c

/-! ### Texts that are not blank -/

/-- Only of a blank text nothing is left. -/
theorem isBlank_of_trim_eq_empty {text : String} (h : trim text = "") :
    ∀ c ∈ text.toList, isBlank c = true := by
  have h_nil : (text.toList.dropWhile isBlank).rdropWhile isBlank = [] := by
    rw [← trimBlanks_eq, ← toList_trim, h, String.toList_empty]
  intro c h_c
  rw [← List.takeWhile_append_dropWhile (p := isBlank) (l := text.toList)] at h_c
  rcases List.mem_append.1 h_c with h_front | h_rest
  · exact List.mem_takeWhile_imp h_front
  · exact List.rdropWhile_eq_nil_iff.1 h_nil c h_rest

/-- Trimming at the end stops in a text that is not blank. -/
theorem trimEnd_append {text : String} (h : trim text ≠ "") (front : String) :
    trimEnd (front ++ text) = front ++ trimEnd text := by
  have h_some : (text.toList.reverse.dropWhile isBlank).isEmpty = false := by
    rw [List.isEmpty_eq_false_iff, ne_eq, ← List.reverse_eq_nil_iff]
    intro h_nil
    have h_end : trimEnd text = "" := by
      rw [trimEnd, List.rdropWhile, h_nil, String.ofList_nil]
    exact h (by rw [← trim_trimEnd, h_end]; rfl)
  apply String.toList_inj.1
  rw [toList_trimEnd, String.toList_append, String.toList_append, toList_trimEnd, List.rdropWhile,
    List.reverse_append, List.dropWhile_append, h_some, List.rdropWhile]
  simp

/-- Trimming a text with a blank behind it keeps what trimming the text alone leaves, and at most a
rest that begins with a blank. -/
theorem trimBlanks_append_blank {cs : List Char} (h : trimBlanks cs ≠ []) {blank : Char}
    (h_blank : isBlank blank = true) (ds : List Char) :
    ∃ rest, trimBlanks (cs ++ blank :: ds) = trimBlanks cs ++ rest ∧
      ∀ c ∈ rest.head?, isBlank c = true := by
  let kept := trimBlanks cs
  let blanks := (cs.dropWhile isBlank).rtakeWhile isBlank
  have h_split : kept ++ blanks = cs.dropWhile isBlank := List.rdropWhile_append_rtakeWhile
  have h_kept : kept.rdropWhile isBlank = kept := List.rdropWhile_idempotent _ _
  -- from the left, trimming stops in the text, since it is not blank
  have h_left : (cs ++ blank :: ds).dropWhile isBlank = kept ++ (blanks ++ blank :: ds) := by
    have h_some : (cs.dropWhile isBlank).isEmpty = false := by
      rw [← h_split, List.isEmpty_eq_false_iff]
      exact List.append_ne_nil_of_left_ne_nil h blanks
    rw [List.dropWhile_append, h_some, ← h_split]
    simp
  refine ⟨(blanks ++ blank :: ds).rdropWhile isBlank, ?_, ?_⟩
  · rw [trimBlanks_eq, h_left, rdropWhile_append_of_kept h_kept]
  · -- the rest begins as the blanks and the blank behind them do
    intro c h_c
    have h_head : c ∈ (blanks ++ blank :: ds).head? := mem_head?_of_rdropWhile h_c
    cases h_blanks : blanks with
    | nil =>
      rw [h_blanks] at h_head
      obtain rfl := Option.some.inj h_head
      exact h_blank
    | cons b bs =>
      rw [h_blanks] at h_head
      obtain rfl := Option.some.inj h_head
      exact List.mem_rtakeWhile_imp (h_blanks ▸ List.mem_cons_self)

end PocketShell.Text
