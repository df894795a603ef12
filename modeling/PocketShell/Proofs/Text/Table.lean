import Mathlib.Algebra.Order.Ring.Nat
import Mathlib.Data.List.Induction
import Mathlib.Order.Bounds.Basic
import PocketShell.Proofs.Text.Pieces
import PocketShell.Text.Table

/-!
# Tables are aligned

The widths of the columns are found on the way through the rows, one cell after the other, and the
cells of a row are then put together with the widths, as many as there are of both. So a width too
few would drop a cell, and a width in the wrong place would move one. Neither happens:

* a cell is either in a column that has a width already, or in the first one that has none
  (`getElem?_widen`, where the number of widths is the invariant);
* so there is a width for each column with a cell in it, and it is the one of the widest cell
  (`getElem?_columnWidths`);
* so every cell of a row is on its line, filled up to the width of its column (`tableLine_eq`), and
  where it begins depends on the columns before it only.

Together with the lines being apart, since no cell has a line feed in it, this says what a table
looks like (`table_aligned`).
-/

namespace PocketShell.Text

variable {rows : List (List String)} {row : List String}

/-! ### The width of a column -/

/-- The cells of a column, from the first row to the last. A row may be too short to have one. -/
def cellsAt (rows : List (List String)) (column : Nat) : List String :=
  rows.filterMap (·[column]?)

/-- **The width of a column:** the number of characters of its widest cell. -/
def columnWidth (rows : List (List String)) (column : Nat) : Nat :=
  ((cellsAt rows column).map String.length).max?.getD 0

theorem mem_cellsAt {column : Nat} {cell : String} :
    cell ∈ cellsAt rows column ↔ ∃ row ∈ rows, row[column]? = some cell :=
  List.mem_filterMap

theorem max?_append_singleton (lengths : List Nat) (length : Nat) :
    (lengths ++ [length]).max? = Option.merge max lengths.max? (some length) := by
  cases lengths with
  | nil => rfl
  | cons first rest =>
    rw [List.cons_append, List.max?_cons', List.max?_cons', List.foldl_append]
    rfl

section Widths

variable {widths : List Nat}

/-- One cell counts in its own column only, if the columns before that have widths. -/
theorem getElem?_widenColumn {column : Nat} (h : column ≤ widths.length) (cell : String)
    (other : Nat) :
    (widenColumn widths column cell)[other]? =
      if other = column then Option.merge max widths[column]? (some cell.length)
      else widths[other]? := by
  unfold widenColumn
  split
  · next width h_width =>
    rw [List.getElem?_set, h_width]
    obtain ⟨h_lt, -⟩ := List.getElem?_eq_some_iff.1 h_width
    simp only [eq_comm, h_lt, if_true]
    rfl
  · next h_none =>
    -- the first column without a width is the next one
    have h_next : column = widths.length := Nat.le_antisymm h (List.getElem?_eq_none_iff.1 h_none)
    rw [h_none, h_next]
    grind [Option.merge]

theorem length_widenColumn {column : Nat} (h : column ≤ widths.length) (cell : String) :
    column + 1 ≤ (widenColumn widths column cell).length := by
  unfold widenColumn
  split
  · next h_width =>
    rw [List.length_set]
    exact (List.getElem?_eq_some_iff.1 h_width).1
  · rw [List.length_append]
    exact Nat.succ_le_succ h

/-- What the cells of a row, from some column on, add to the widths. -/
theorem getElem?_foldl_widenColumn {first : Nat} (h : first ≤ widths.length) (row : List String)
    (column : Nat) :
    ((row.zipIdx first).foldl
        (fun widths entry => widenColumn widths entry.2 entry.1) widths)[column]? =
      if column < first then widths[column]?
      else Option.merge max widths[column]? (row[column - first]?.map String.length) := by
  induction row generalizing widths first with
  | nil =>
    rw [List.getElem?_nil, Option.map_none, Option.merge_none_right, ite_self]
    rfl
  | cons cell row ih =>
    rw [List.zipIdx_cons, List.foldl_cons, ih (length_widenColumn h cell),
      getElem?_widenColumn h cell]
    rcases Nat.lt_trichotomy column first with h_before | rfl | h_behind
    · rw [if_pos (Nat.lt_succ_of_lt h_before), if_neg h_before.ne, if_pos h_before]
    · simp
    · obtain ⟨more, rfl⟩ := Nat.exists_eq_add_of_lt h_behind
      have h_index : first + more + 1 - first = (first + more + 1 - (first + 1)) + 1 := by omega
      rw [if_neg (by omega), if_neg (by omega), if_neg (by omega), h_index, List.getElem?_cons_succ]

/-- **One row** widens the columns in which it has a cell, or gives them a width. -/
theorem getElem?_widen (widths : List Nat) (row : List String) (column : Nat) :
    (widen widths row)[column]? =
      Option.merge max widths[column]? (row[column]?.map String.length) :=
  getElem?_foldl_widenColumn (Nat.zero_le _) row column

end Widths

/-- **All rows** give every column with a cell in it the width of its widest cell. -/
theorem getElem?_columnWidths (rows : List (List String)) (column : Nat) :
    (columnWidths rows)[column]? = ((cellsAt rows column).map String.length).max? := by
  induction rows using List.reverseRecOn with
  | nil => rfl
  | append_singleton rows row ih =>
    have h_rows : columnWidths (rows ++ [row]) = widen (columnWidths rows) row := by
      rw [columnWidths, List.foldl_append]
      rfl
    have h_cells : cellsAt (rows ++ [row]) column = cellsAt rows column ++ row[column]?.toList := by
      rw [cellsAt, cellsAt, List.filterMap_append]
      cases h_cell : row[column]? <;> simp [h_cell]
    rw [h_rows, getElem?_widen, ih, h_cells, List.map_append]
    cases row[column]? with
    | none => rw [Option.map_none, Option.merge_none_right, Option.toList_none, List.map_nil,
        List.append_nil]
    | some cell => exact (max?_append_singleton _ _).symm

section Row

variable (h_row : row ∈ rows) {column : Nat} {cell : String} (h_cell : row[column]? = some cell)

include h_row h_cell

theorem max?_cellsAt :
    ((cellsAt rows column).map String.length).max? = some (columnWidth rows column) := by
  have h_mem : cell ∈ cellsAt rows column := mem_cellsAt.2 ⟨row, h_row, h_cell⟩
  cases h_max : ((cellsAt rows column).map String.length).max? with
  | some width => rw [columnWidth, h_max, Option.getD_some]
  | none =>
    rw [List.max?_eq_none_iff, List.map_eq_nil_iff] at h_max
    rw [h_max] at h_mem
    cases h_mem

/-- **The widest cell** of a column is as wide as the column, and no cell is wider. -/
theorem isGreatest_columnWidth :
    IsGreatest {length | ∃ other ∈ rows, ∃ cell, other[column]? = some cell ∧ cell.length = length}
      (columnWidth rows column) := by
  obtain ⟨h_mem, h_le⟩ := List.max?_eq_some_iff.1 (max?_cellsAt h_row h_cell)
  constructor
  · obtain ⟨widest, h_widest, h_length⟩ := List.mem_map.1 h_mem
    obtain ⟨other, h_other, h_at⟩ := mem_cellsAt.1 h_widest
    exact ⟨other, h_other, widest, h_at, h_length⟩
  · rintro length ⟨other, h_other, text, h_at, rfl⟩
    exact h_le _ (List.mem_map_of_mem (mem_cellsAt.2 ⟨other, h_other, h_at⟩))

theorem length_le_columnWidth : cell.length ≤ columnWidth rows column :=
  (isGreatest_columnWidth h_row h_cell).2 ⟨row, h_row, cell, h_cell, rfl⟩

end Row

/-! ### The line of a row -/

@[simp] theorem length_spaces (count : Nat) : (spaces count).length = count := by
  simp [spaces]

theorem length_pad {width : Nat} {text : String} (h : text.length ≤ width) :
    (pad width text).length = width := by
  rw [pad, String.length_append, length_spaces]
  omega

/-- The cells of a row, each filled up to the width of its column. -/
def filled (rows : List (List String)) (row : List String) : List String :=
  row.mapIdx fun column cell => pad (columnWidth rows column) cell

/-- **No cell is dropped** from the line of a row, because there is a width for each of them. -/
theorem tableLine_eq (h_row : row ∈ rows) (gap : Nat) :
    tableLine (columnWidths rows) gap row = String.intercalate (spaces gap) (filled rows row) := by
  have h_cells : List.zipWith (fun cell width => pad width cell) row (columnWidths rows) =
      filled rows row := by
    refine List.ext_getElem? fun column => ?_
    rw [filled, List.getElem?_mapIdx, List.getElem?_zipWith]
    cases h_cell : row[column]? with
    | none => rfl
    | some cell => rw [getElem?_columnWidths, max?_cellsAt h_row h_cell]; rfl
  rw [tableLine, h_cells]

/-- **Where a column starts:** behind the columns before it, each with a gap. -/
def offset (rows : List (List String)) (gap column : Nat) : Nat :=
  ((List.range column).map fun before => columnWidth rows before + gap).sum

/-- One of several texts that are put together, with the separator between them. -/
theorem exists_intercalate_eq (separator : String) {texts : List String} {i : Nat} {text : String}
    (h : texts[i]? = some text) :
    ∃ front back, String.intercalate separator texts = front ++ text ++ back ∧
      front.length = ((texts.take i).map fun before => before.length + separator.length).sum ∧
      (i + 1 < texts.length → ∃ rest, back = separator ++ rest) ∧
      (i + 1 = texts.length → back = "") := by
  induction texts generalizing i with
  | nil => cases h
  | cons first texts ih =>
    cases i with
    | zero =>
      obtain rfl : first = text := by simpa using h
      cases texts with
      | nil => exact ⟨"", "", by simp, by simp, by simp, fun _ => rfl⟩
      | cons second texts =>
        refine ⟨"", separator ++ String.intercalate separator (second :: texts), ?_, by simp,
          fun _ => ⟨_, rfl⟩, by simp⟩
        rw [String.intercalate_cons_cons, String.empty_append, String.append_assoc]
    | succ i =>
      rw [List.getElem?_cons_succ] at h
      obtain ⟨front, back, h_eq, h_length, h_gap, h_end⟩ := ih h
      have h_some : texts ≠ [] := by
        rintro rfl
        cases h
      refine ⟨first ++ separator ++ front, back, ?_, ?_, fun h_lt => h_gap (by simpa using h_lt),
        fun h_last => h_end (by simpa using h_last)⟩
      · rw [String.intercalate_cons_of_ne_nil h_some, h_eq]
        simp only [String.append_assoc]
      · simp only [List.take_succ_cons, List.map_cons, List.sum_cons, String.length_append,
          h_length]

/-- The cells before a column take as much place as the columns do. -/
theorem sum_filled (h_row : row ∈ rows) (gap : Nat) {column : Nat} (h : column ≤ row.length) :
    (((filled rows row).take column).map fun before => before.length + (spaces gap).length).sum =
      offset rows gap column := by
  rw [offset]
  refine congrArg List.sum (List.ext_getElem? fun i => ?_)
  rw [List.getElem?_map, List.getElem?_map, List.getElem?_take, filled, List.getElem?_mapIdx,
    length_spaces]
  by_cases h_lt : i < column
  · have h_cell : row[i]? = some row[i] := List.getElem?_eq_getElem (h_lt.trans_le h)
    rw [if_pos h_lt, h_cell, List.getElem?_range h_lt, Option.map_some, Option.map_some,
      Option.map_some, length_pad (length_le_columnWidth h_row h_cell)]
  · rw [if_neg h_lt, List.getElem?_eq_none (by simpa using h_lt)]
    rfl

/-- **A row as it is laid out.** Every cell begins where its column does and is there in full,
filled up to the width of the column. The gap follows, or behind the last cell the end of the
line. -/
structure LaidOut (rows : List (List String)) (gap : Nat) (row : List String) (line : String) :
    Prop where
  cell {column : Nat} {cell : String} (h_cell : row[column]? = some cell) :
    ∃ front back, line =
        front ++ cell ++ spaces (columnWidth rows column - cell.length) ++ back ∧
      front.length = offset rows gap column ∧ cell.length ≤ columnWidth rows column ∧
      (column + 1 < row.length → ∃ rest, back = spaces gap ++ rest) ∧
      (column + 1 = row.length → back = "")
  empty (h : row = []) : line = ""

theorem laidOut_tableLine (h_row : row ∈ rows) (gap : Nat) :
    LaidOut rows gap row (tableLine (columnWidths rows) gap row) := by
  constructor
  · intro column cell h_cell
    have h_filled : (filled rows row)[column]? = some (pad (columnWidth rows column) cell) := by
      rw [filled, List.getElem?_mapIdx, h_cell]
      rfl
    have h_size : (filled rows row).length = row.length := List.length_mapIdx
    obtain ⟨front, back, h_eq, h_length, h_gap, h_end⟩ :=
      exists_intercalate_eq (spaces gap) h_filled
    obtain ⟨h_lt, -⟩ := List.getElem?_eq_some_iff.1 h_cell
    rw [sum_filled h_row gap h_lt.le] at h_length
    rw [h_size] at h_gap h_end
    refine ⟨front, back, ?_, h_length, length_le_columnWidth h_row h_cell, h_gap, h_end⟩
    rw [tableLine_eq h_row, h_eq, pad, ← String.append_assoc]
  · rintro rfl
    rfl

/-! ### The lines of a table -/

/-- What stands in no part and not between them stands nowhere. -/
theorem notMem_intercalate {c : Char} {separator : String} (h_separator : c ∉ separator.toList)
    {texts : List String} (h : ∀ text ∈ texts, c ∉ text.toList) :
    c ∉ (String.intercalate separator texts).toList := by
  induction texts with
  | nil => simp
  | cons first texts ih =>
    have h_first : c ∉ first.toList := h first List.mem_cons_self
    by_cases h_none : texts = []
    · rwa [h_none, String.intercalate_singleton]
    · have h_rest := ih fun text h_text => h text (List.mem_cons_of_mem _ h_text)
      rw [String.intercalate_cons_of_ne_nil h_none]
      simp only [String.toList_append, List.mem_append, not_or]
      exact ⟨⟨h_first, h_separator⟩, h_rest⟩

theorem feed_notMem_spaces (count : Nat) : '\n' ∉ (spaces count).toList := by
  simp [spaces]

theorem feed_notMem_tableLine (h_row : row ∈ rows) (h : ∀ cell ∈ row, '\n' ∉ cell.toList)
    (gap : Nat) : '\n' ∉ (tableLine (columnWidths rows) gap row).toList := by
  rw [tableLine_eq h_row]
  refine notMem_intercalate (feed_notMem_spaces gap) fun text h_text => ?_
  obtain ⟨column, h_lt, rfl⟩ := List.mem_mapIdx.1 h_text
  have h_cell : '\n' ∉ row[column].toList := h _ (List.getElem_mem h_lt)
  rw [pad, String.toList_append, List.mem_append, not_or]
  exact ⟨h_cell, feed_notMem_spaces _⟩

/-- Lines that are put together are told apart again. -/
theorem pieces_intercalate {lines : List String} (h_some : lines ≠ [])
    (h : ∀ line ∈ lines, '\n' ∉ line.toList) :
    (pieces '\n' (String.intercalate "\n" lines).toList).map String.ofList = lines := by
  have h_feed : "\n".toList = ['\n'] := rfl
  rw [pieces_eq_splitOn, String.toList_intercalate, h_feed,
    List.splitOn_intercalate _ (List.forall_mem_map.2 h) (by simpa using h_some), List.map_map]
  exact List.map_id'' (fun _ => String.ofList_toList) lines

/-- **Tables are aligned and lose nothing.** If no cell has a line feed in it, the lines of a table
can be told apart, there is one for each row, in the same order, and on each line

* every cell of the row begins at the offset of its column, which depends on the widths of the
  columns before and on the gap only. It is there in full, followed by as many spaces as it is
  shorter than its column, and by the gap if it is not the last one; the line ends with the last
  cell and its spaces;
* the width of its column is the largest number of characters of a cell in it. -/
theorem table_aligned (h : ∀ row ∈ rows, ∀ cell ∈ row, '\n' ∉ cell.toList) (gap : Nat) :
    ∃ lines : List String, table rows gap = String.intercalate "\n" lines ∧
      (rows ≠ [] → (pieces '\n' (table rows gap).toList).map String.ofList = lines) ∧
      lines.length = rows.length ∧
      ∀ (i : Nat) (row : List String) (line : String), rows[i]? = some row → lines[i]? = some line →
        '\n' ∉ line.toList ∧ LaidOut rows gap row line ∧
          ∀ column < row.length,
            IsGreatest
              {length | ∃ other ∈ rows, ∃ cell, other[column]? = some cell ∧ cell.length = length}
              (columnWidth rows column) := by
  refine ⟨rows.map (tableLine (columnWidths rows) gap), rfl, fun h_some => ?_,
    List.length_map _, ?_⟩
  · refine pieces_intercalate (by simpa using h_some) fun line h_line => ?_
    obtain ⟨row, h_row, rfl⟩ := List.mem_map.1 h_line
    exact feed_notMem_tableLine h_row (h row h_row) gap
  · intro i row line h_at h_line
    have h_row : row ∈ rows := List.mem_of_getElem? h_at
    rw [List.getElem?_map, h_at, Option.map_some, Option.some.injEq] at h_line
    subst h_line
    refine ⟨feed_notMem_tableLine h_row (h row h_row) gap, laidOut_tableLine h_row gap, ?_⟩
    exact fun column h_lt => isGreatest_columnWidth h_row (List.getElem?_eq_getElem h_lt)

/-- Rows of different lengths, one of them empty, with an empty cell and with one that takes more
bytes than characters. -/
theorem table_aligned_ragged :
    ∃ lines : List String,
      table [["🥔", "one"], [], ["long", "", "x"]] 2 = String.intercalate "\n" lines ∧
      lines.length = 3 ∧ (∀ line, lines[1]? = some line → line = "") ∧
      ∀ line, lines[2]? = some line → ∃ front, line = front ++ "x" ∧ front.length = 11 := by
  have h_feed : ∀ row ∈ [["🥔", "one"], [], ["long", "", "x"]], ∀ cell ∈ row,
      '\n' ∉ cell.toList := by
    decide +kernel
  obtain ⟨lines, h_table, -, h_length, h_lines⟩ := table_aligned h_feed 2
  refine ⟨lines, h_table, h_length, fun line h_line => ?_, fun line h_line => ?_⟩
  · exact (h_lines 1 [] line rfl h_line).2.1.empty rfl
  · have h_laid := (h_lines 2 ["long", "", "x"] line rfl h_line).2.1
    have h_cell : ["long", "", "x"][2]? = some "x" := rfl
    obtain ⟨front, back, h_eq, h_front, -, -, h_end⟩ := h_laid.cell h_cell
    have h_width : columnWidth [["🥔", "one"], [], ["long", "", "x"]] 2 - "x".length = 0 := by
      decide +kernel
    have h_offset : offset [["🥔", "one"], [], ["long", "", "x"]] 2 2 = 11 := by decide +kernel
    have h_none : spaces 0 = "" := rfl
    rw [h_width, h_end rfl, h_none, String.append_empty, String.append_empty] at h_eq
    exact ⟨front, h_eq, h_front.trans h_offset⟩

example : table [["🥔", "one"], [], ["long", "", "x"]] 2 = "🥔     one\n\nlong       x" := by
  decide +kernel

end PocketShell.Text
