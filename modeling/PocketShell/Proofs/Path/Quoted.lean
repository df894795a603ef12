import PocketShell.Proofs.Path
import PocketShell.Proofs.Token.Reading

/-!
# Paths between quotes

A word between quotes is one way to write a path, if whoever reads the path takes the quotes away.
As a path, the text with its quotes never denotes what the word denotes, whatever the word is and
whatever the working directory is (`Path.segments_quotes_ne`).

Both are followed piece by piece. Quotes and backslashes add to the pieces, and a piece that
something was added to is a step down, whatever it was before; all other pieces are the same on both
sides. So the walk along the text is never less deep than the walk along the word. The last piece of
the text has the closing quote, so it is a step down. The last piece of the word is a step down to
something shorter, or else the word ends less deep than the text. `Path.Outgrows` is what the pieces
have in common all the way, and is found along the spelling of the word.
-/

namespace PocketShell.Path

/-- A piece that is neither empty nor dotted is entered. -/
def Enters (piece : List Char) : Prop :=
  piece ≠ [] ∧ piece ≠ ['.'] ∧ piece ≠ ['.', '.']

/-- **Outgrowing.** The first pieces are the second ones, but for some of them that have become
steps down. The last one has, and it is longer than the piece that it stands for. -/
inductive Outgrows : List (List Char) → List (List Char) → Prop where
  | last {piece other : List Char} : Enters piece → other.length < piece.length →
      Outgrows [piece] [other]
  | cons {piece other : List Char} {pieces others : List (List Char)} :
      piece = other ∨ Enters piece → Outgrows pieces others →
      Outgrows (piece :: pieces) (other :: others)

/-- Only a dot makes a dotted piece of one that is none. -/
theorem Enters.cons_of_ne {c : Char} (h : c ≠ '.') (piece : List Char) : Enters (c :: piece) :=
  ⟨by simp, by simp [h], by simp [h]⟩

theorem Enters.cons {piece : List Char} (h : Enters piece) (c : Char) : Enters (c :: piece) := by
  obtain ⟨h_some, h_dot, -⟩ := h
  exact ⟨by simp, by simp [h_some], by simp [h_dot]⟩

theorem enter_of_enters {piece : List Char} (h : Enters piece) (walked : List String) :
    enter walked (String.ofList piece) = String.ofList piece :: walked := by
  obtain ⟨h_some, h_dot, h_dots⟩ := h
  have h_none : ¬ (String.ofList piece = "" ∨ String.ofList piece = ".") := by
    rw [← String.toList_inj, ← String.toList_inj, String.toList_ofList]
    exact not_or.2 ⟨h_some, h_dot⟩
  have h_up : String.ofList piece ≠ ".." := by
    rw [ne_eq, ← String.toList_inj, String.toList_ofList]
    exact h_dots
  rw [enter, if_neg h_none, if_neg h_up]

/-- A piece leads down at most one step, and its last name is itself if it does. -/
theorem enter_cases (walked : List String) (piece : String) :
    enter walked piece = piece :: walked ∨ (enter walked piece).length ≤ walked.length := by
  unfold enter
  split
  · exact .inr (Nat.le_refl _)
  split
  · exact .inr (by simp)
  · exact .inl rfl

/-- The same piece does not change which of two walks is the deeper one. -/
theorem length_enter_le {walked other : List String} (h : other.length ≤ walked.length)
    (piece : String) : (enter other piece).length ≤ (enter walked piece).length := by
  unfold enter
  split
  · exact h
  split
  · simp
    omega
  · simpa using h

namespace Outgrows

variable {pieces others : List (List Char)}

/-- The same character at the front of both. -/
theorem push (h : Outgrows pieces others) (c : Char) :
    Outgrows (pieces.modifyHead (c :: ·)) (others.modifyHead (c :: ·)) := by
  cases h with
  | last h_enters h_length => exact .last (h_enters.cons c) (by simpa using h_length)
  | cons h_first h_rest =>
    exact .cons (h_first.imp (congrArg (c :: ·)) fun h_enters => h_enters.cons c) h_rest

/-- A character that is only in the first one, as quotes and backslashes are. -/
theorem mark (h : Outgrows pieces others) {c : Char} (h_c : c ≠ '.') :
    Outgrows (pieces.modifyHead (c :: ·)) others := by
  cases h with
  | @last piece other _ h_length =>
    exact .last (.cons_of_ne h_c piece) (Nat.lt_succ_of_lt h_length)
  | @cons piece _ _ _ _ h_rest => exact .cons (.inr (.cons_of_ne h_c piece)) h_rest

/-- **The walks end apart,** if the first one is not less deep to begin with. -/
theorem foldl_ne (h : Outgrows pieces others) {walked other : List String}
    (h_depth : other.length ≤ walked.length) :
    (pieces.map String.ofList).foldl enter walked ≠
      (others.map String.ofList).foldl enter other := by
  induction h generalizing walked other with
  | @last piece short h_enters h_length =>
    show enter walked (String.ofList piece) ≠ enter other (String.ofList short)
    rw [enter_of_enters h_enters]
    intro h_same
    rcases enter_cases other (String.ofList short) with h_down | h_up
    · -- both end with a step down, but not to the same name
      rw [h_down, List.cons.injEq, String.ofList_inj] at h_same
      exact absurd h_length (by simp [h_same.1])
    · -- only one of them ends with a step down
      rw [← h_same, List.length_cons] at h_up
      omega
  | @cons piece first pieces others h_first _ ih =>
    refine ih ?_
    rcases h_first with rfl | h_enters
    · exact length_enter_le h_depth _
    · rw [enter_of_enters h_enters]
      rcases enter_cases other (String.ofList first) with h_down | h_up
      · rw [h_down]
        simpa using h_depth
      · exact Nat.le_succ_of_le (Nat.le_trans h_up h_depth)

/-- **What stands between quotes outgrows what it spells,** the closing quote included. -/
theorem of_spells {body word : List Char} (h : Scanner.Mode.quoted.Spells [] body word) :
    Outgrows (Text.pieces '/' (body ++ ['"'])) (Text.pieces '/' word) := by
  induction h with
  | nil => exact .last (.cons_of_ne (by decide) []) (by decide)
  | @content c text read _ _ ih =>
    by_cases h_slash : c = '/'
    · subst h_slash
      exact .cons (.inl rfl) ih
    · rw [List.cons_append, Text.pieces_cons_of_ne h_slash, Text.pieces_cons_of_ne h_slash]
      exact ih.push c
  | @escaped c text read _ ih =>
    rw [List.cons_append, List.cons_append, Text.pieces_cons_of_ne (by decide)]
    by_cases h_slash : c = '/'
    · -- the backslash is a piece of its own
      subst h_slash
      exact .cons (.inr (.cons_of_ne (by decide) [])) ih
    · rw [Text.pieces_cons_of_ne h_slash, Text.pieces_cons_of_ne h_slash]
      exact (ih.push c).mark (by decide)

end Outgrows

/-- **A path between quotes** does not denote what the word between them denotes. -/
theorem segments_quotes_ne {body word : String}
    (h : Scanner.Mode.quoted.Spells [] body.toList word.toList) (cwd : String) :
    segments cwd ("\"" ++ body ++ "\"") ≠ segments cwd word := by
  have h_text : ("\"" ++ body ++ "\"").toList = '"' :: (body.toList ++ ['"']) := by simp
  have h_relative : ¬ IsAbsolute ("\"" ++ body ++ "\"") := by
    rw [IsAbsolute, h_text]
    simp
  have h_outgrows : Outgrows (Text.pieces '/' ("\"" ++ body ++ "\"").toList)
      (Text.pieces '/' word.toList) := by
    rw [h_text, Text.pieces_cons_of_ne (by decide)]
    exact (Outgrows.of_spells h).mark (by decide)
  -- an absolute word is followed from the root, which is not below the working directory
  obtain ⟨start, h_start, h_word⟩ : ∃ start : List String,
      start.length ≤ (walk [] cwd).length ∧ segments cwd word = (walk start word).reverse := by
    by_cases h_absolute : IsAbsolute word
    · refine ⟨[], Nat.zero_le _, ?_⟩
      rw [segments_eq_walk, combine_of_isAbsolute h_absolute]
    · exact ⟨walk [] cwd, Nat.le_refl _, segments_of_not_isAbsolute h_absolute cwd⟩
  rw [segments_of_not_isAbsolute h_relative, h_word, ne_eq, List.reverse_inj]
  exact h_outgrows.foldl_ne h_start

end PocketShell.Path
