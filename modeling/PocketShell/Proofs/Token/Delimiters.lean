import PocketShell.Proofs.Token.Labels

/-!
# Delimiters that stand bare

A delimiter character of a text becomes a token of its own if it stands **bare**: outside quotes and
not behind a backslash. `Scanner.bare` collects the bare characters of a text from left to right; it
knows about quotes and backslashes and nothing about tokens. The delimiter tokens of the text are
exactly these characters, in the same order (`Scanner.delimiters_finish`).

The bare characters are the ones that are labelled as delimiters (`Scanner.bare_eq_labels`), and a
token that is labelled so is a single character (`Token.Proper`).
-/

namespace PocketShell

namespace Token

def isDelimiter (token : Token) : Bool :=
  token.kind == .delimiter

/-- The characters of delimiter tokens are the characters that are labelled as delimiters. -/
theorem content_delimiters {tokens : List Token} (h : ∀ token ∈ tokens, token.Proper) :
    (tokens.filter isDelimiter).map content =
      ((tokens.flatMap labelled).filter (·.2 = .delimiter)).map (String.singleton ·.1) := by
  induction tokens with
  | nil => rfl
  | cons token tokens ih =>
    rw [List.forall_mem_cons] at h
    rw [List.flatMap_cons, List.filter_append, List.map_append, ← ih h.2]
    obtain ⟨kind, content⟩ := token
    by_cases h_kind : kind = .delimiter
    · obtain ⟨c, h_single⟩ := h.1.single h_kind
      rw [show content = String.singleton c from h_single]
      simp [isDelimiter, labelled, h_kind]
    · simp [isDelimiter, labelled, h_kind]

end Token

namespace Scanner

/-- **Bare delimiters.** The delimiter characters of a text that are neither between quotes nor
behind a backslash, given whether the text begins between quotes and whether it begins behind a
backslash. A blank is never a delimiter. -/
def bare (delimiters : List Char) : (quoted escaped : Bool) → List Char → List Char
  | _, _, [] => []
  | quoted, true, _ :: cs => bare delimiters quoted false cs
  | quoted, false, c :: cs =>
    if c = '\\' then bare delimiters quoted true cs
    else if c = '"' then bare delimiters (!quoted) false cs
    else if quoted = false ∧ Text.isBlank c = false ∧ c ∈ delimiters then
      c :: bare delimiters quoted false cs
    else bare delimiters quoted false cs

theorem label_eq_delimiter_iff {delimiters : List Char} {quoted escaped : Bool} {c : Char} :
    label delimiters quoted escaped c = .delimiter ↔
      escaped = false ∧ quoted = false ∧ Text.isBlank c = false ∧ c ∈ delimiters := by
  cases quoted with
  | true => simp [label]
  | false =>
    cases escaped with
    | true => simp [label]
    | false =>
      cases h_blank : Text.isBlank c <;> simp [label, h_blank]

/-- **Bare delimiters are labelled as delimiters,** and nothing else is. -/
theorem bare_eq_labels (delimiters : List Char) (quoted escaped : Bool) (cs : List Char) :
    bare delimiters quoted escaped cs =
      ((labels delimiters quoted escaped cs).filter (·.2 = .delimiter)).map Prod.fst := by
  induction cs generalizing quoted escaped with
  | nil => simp [bare, labels]
  | cons c cs ih =>
    cases escaped with
    | true =>
      have h_label : label delimiters quoted true c ≠ .delimiter :=
        fun h => absurd (label_eq_delimiter_iff.1 h).1.symm Bool.false_ne_true
      rw [bare, labels_escaped, ih]
      simp [h_label]
    | false =>
      by_cases h_backslash : c = '\\'
      · rw [bare, if_pos h_backslash, ih, h_backslash, labels_backslash]
      by_cases h_quote : c = '"'
      · rw [bare, if_neg h_backslash, if_pos h_quote, ih, h_quote, labels_quote]
      have h_label := @label_eq_delimiter_iff delimiters quoted false c
      rw [bare, if_neg h_backslash, if_neg h_quote, ih,
        labels_of_ne_special _ _ ⟨h_backslash, h_quote⟩]
      by_cases h_bare : quoted = false ∧ Text.isBlank c = false ∧ c ∈ delimiters
      · rw [if_pos h_bare, h_label.2 ⟨rfl, h_bare⟩]
        rfl
      · have h_other : label delimiters quoted false c ≠ .delimiter :=
          fun h => h_bare (h_label.1 h).2
        rw [if_neg h_bare]
        simp [h_other]

/-- **The delimiter tokens of a text** are the delimiters that stand bare in it. -/
theorem delimiters_finish (delimiters : List Char) (text : String) :
    (((new delimiters).append text).finish.1.filter Token.isDelimiter).map Token.content =
      (bare delimiters false false text.toList).map String.singleton := by
  rw [Token.content_delimiters fun _ => proper_of_mem_finish, labelled_finish, bare_eq_labels,
    List.map_map]
  rfl

end Scanner

end PocketShell
