import PocketShell.Text.Pieces

/-!
# Pieces and lines of a text

Cutting at a separator is undone by putting it back (`Text.pieces_eq_splitOn` leads to the library's
lemmas on that), and no piece contains it (`Text.notMem_of_mem_pieces`). A separator in the middle
of a text can be cut at first, and the texts on both sides of it after that
(`Text.pieces_append_separator`); so the pieces of a text are found from its left end.

The same for lines: a line that is ended by a line feed is read in front of the lines behind it
(`Text.linesOfPieces_append_feed`), and no line contains a line feed.
-/

namespace PocketShell.Text

/-! ### Pieces -/

theorem pieces_eq_splitOn (separator : Char) (cs : List Char) :
    pieces separator cs = cs.splitOn separator := by
  induction cs with
  | nil => rfl
  | cons c cs ih =>
    rw [List.splitOn_cons_eq_if_modifyHead, pieces, ih]
    by_cases h : c = separator
    · simp [h]
    · simp only [h, if_false, beq_iff_eq]
      -- there is always a first piece, and the character goes to the front of it
      cases h_rest : cs.splitOn separator with
      | nil => exact absurd h_rest (List.splitOn_ne_nil separator cs)
      | cons piece rest => rfl

/-- Any other character goes to the front of the first piece. -/
theorem pieces_cons_of_ne {separator c : Char} (h : c ≠ separator) (cs : List Char) :
    pieces separator (c :: cs) = (pieces separator cs).modifyHead (c :: ·) := by
  rw [pieces_eq_splitOn, pieces_eq_splitOn, List.splitOn_cons_eq_if_modifyHead]
  simp [h]

theorem notMem_of_mem_pieces {separator : Char} {cs piece : List Char}
    (h : piece ∈ pieces separator cs) : separator ∉ piece := by
  induction cs generalizing piece with
  | nil =>
    rw [pieces, List.mem_singleton] at h
    simp [h]
  | cons c cs ih =>
    rw [pieces] at h
    split at h
    · rcases List.mem_cons.1 h with rfl | h_rest
      · simp
      · exact ih h_rest
    · next h_ne =>
      split at h
      · rw [List.mem_singleton] at h
        simp [h, Ne.symm h_ne]
      · next first rest h_pieces =>
        -- of the old pieces only the first changes, by a character that is no separator
        have h_mem : ∀ {p}, p ∈ first :: rest → separator ∉ p := fun h_p => ih (h_pieces ▸ h_p)
        rcases List.mem_cons.1 h with rfl | h_rest
        · simp [Ne.symm h_ne, h_mem List.mem_cons_self]
        · exact h_mem (List.mem_cons_of_mem _ h_rest)

/-- A text without the separator is one piece. -/
theorem pieces_of_notMem {separator : Char} {cs : List Char} (h : separator ∉ cs) :
    pieces separator cs = [cs] := by
  induction cs with
  | nil => rfl
  | cons c cs ih =>
    rw [List.mem_cons, not_or] at h
    rw [pieces, if_neg (Ne.symm h.1), ih h.2]

theorem pieces_ne_nil (separator : Char) (cs : List Char) : pieces separator cs ≠ [] := by
  rw [pieces_eq_splitOn]
  exact List.splitOn_ne_nil separator cs

/-- **Cutting at one separator first.** -/
theorem pieces_append_separator (separator : Char) (front back : List Char) :
    pieces separator (front ++ separator :: back) =
      pieces separator front ++ pieces separator back := by
  induction front with
  | nil => exact if_pos rfl
  | cons c front ih =>
    by_cases h : c = separator
    · rw [List.cons_append, pieces, if_pos h, ih, pieces, if_pos h, List.cons_append]
    · -- the character goes to the front of the first piece, which is a piece of the front
      obtain ⟨piece, rest, h_front⟩ := List.exists_cons_of_ne_nil (pieces_ne_nil separator front)
      rw [List.cons_append, pieces, if_neg h, ih, pieces, if_neg h, h_front, List.cons_append]
      rfl

/-- Cutting at the last separator: what is behind it holds no separator any more. -/
theorem cutLast?_append_cons {separator : Char} {back : List Char} (h : separator ∉ back)
    (front : List Char) : cutLast? separator (front ++ separator :: back) = some (front, back) := by
  -- a text without a separator is not cut
  have h_none : ∀ {cs : List Char}, separator ∉ cs → cutLast? separator cs = none := by
    intro cs
    induction cs with
    | nil => exact fun _ => rfl
    | cons c cs ih =>
      intro h_cs
      rw [List.mem_cons, not_or] at h_cs
      rw [cutLast?, ih h_cs.2]
      simp [Ne.symm h_cs.1]
  induction front with
  | nil => rw [List.nil_append, cutLast?, h_none h]; simp
  | cons c front ih => rw [List.cons_append, cutLast?, ih]

/-! ### Lines -/

/-- A line that is ended by a line feed stands in front of the lines behind it. -/
theorem linesOfPieces_append_feed {line : List Char} (h : '\n' ∉ line) (rest : List Char) :
    linesOfPieces (pieces '\n' (line ++ '\n' :: rest)) =
      dropReturn line :: linesOfPieces (pieces '\n' rest) := by
  obtain ⟨piece, more, h_rest⟩ := List.exists_cons_of_ne_nil (pieces_ne_nil '\n' rest)
  rw [pieces_append_separator, pieces_of_notMem h, h_rest]
  rfl

/-- Lines that are each ended by a line feed are read one by one, each without a carriage return at
its end. -/
theorem linesOfPieces_flatMap {lines : List (List Char)} (h : ∀ line ∈ lines, '\n' ∉ line) :
    linesOfPieces (pieces '\n' (lines.flatMap (· ++ ['\n']))) = lines.map dropReturn := by
  induction lines with
  | nil => rfl
  | cons line lines ih =>
    have h_line : '\n' ∉ line := h line List.mem_cons_self
    have h_rest := ih fun other h_mem => h other (List.mem_cons_of_mem _ h_mem)
    rw [List.flatMap_cons, List.append_assoc, List.singleton_append,
      linesOfPieces_append_feed h_line, h_rest, List.map_cons]

theorem mem_of_mem_dropReturn {c : Char} {line : List Char} (h : c ∈ dropReturn line) :
    c ∈ line := by
  unfold dropReturn at h
  split at h
  · exact List.dropLast_subset line h
  · exact h

theorem dropReturn_eq_self_iff {line : List Char} :
    dropReturn line = line ↔ line.getLast? ≠ some '\r' := by
  unfold dropReturn
  constructor
  · intro h_eq h_last
    -- a line that is not empty is longer than without its last character
    obtain ⟨front, rfl⟩ := List.getLast?_eq_some_iff.1 h_last
    simp at h_eq
  · exact fun h => if_neg h

theorem notMem_of_mem_linesOfPieces {pieces : List (List Char)}
    (h : ∀ piece ∈ pieces, '\n' ∉ piece) : ∀ line ∈ linesOfPieces pieces, '\n' ∉ line := by
  induction pieces with
  | nil => exact fun _ h_mem => nomatch h_mem
  | cons piece rest ih =>
    have h_piece : '\n' ∉ piece := h piece List.mem_cons_self
    have h_rest := ih fun other h_mem => h other (List.mem_cons_of_mem _ h_mem)
    intro line h_line
    cases rest with
    | nil =>
      rw [linesOfPieces] at h_line
      split at h_line
      · cases h_line
      · exact List.mem_singleton.1 h_line ▸ h_piece
    | cons next rest =>
      rcases List.mem_cons.1 h_line with rfl | h_mem
      · exact fun h_feed => h_piece (mem_of_mem_dropReturn h_feed)
      · exact h_rest line h_mem

/-- **No line contains a line feed.** -/
theorem notMem_of_mem_lines {text line : String} (h : line ∈ lines text) : '\n' ∉ line.toList := by
  obtain ⟨cs, h_cs, rfl⟩ := List.mem_map.1 h
  rw [String.toList_ofList]
  exact notMem_of_mem_linesOfPieces (fun _ => notMem_of_mem_pieces) cs h_cs

end PocketShell.Text
