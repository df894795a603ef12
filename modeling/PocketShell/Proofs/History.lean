import Mathlib.Data.List.DropRight
import PocketShell.History
import PocketShell.Proofs.Text.Pieces

/-!
# Histories, shortened and as text files

What a limit leaves of a history is `History.newest`: an end of it, no longer than the limit.

A history is written with one line for each entry and read line by line. `History.Storable` says
what has to hold for the two to fit together, and `History.ofText_toText_iff` that nothing less will
do: an entry that holds a line feed comes back as several, one with a carriage return at its end
comes back without it, and the history of one empty entry is written as the empty file, which holds
no line. All other histories are written as their entries, each with a line feed behind it
(`History.toList_toText`), and such a text is read line by line.
-/

namespace PocketShell.History

/-! ### The newest entries -/

/-- **The newest entries,** as many as the limit allows; all of them without a limit. -/
def newest {α : Type} : Option Nat → List α → List α
  | none, entries => entries
  | some limit, entries => entries.rtake limit

theorem entries_truncate (history : History) (limit : Option Nat) :
    (history.truncate limit).entries = newest limit history.entries := by
  cases limit with
  | none => rfl
  | some limit => rfl

theorem entries_push (history : History) (line : String) (limit : Option Nat) :
    (history.push line limit).entries = newest limit (history.entries ++ [line]) :=
  entries_truncate _ limit

theorem newest_suffix {α : Type} (limit : Option Nat) (entries : List α) :
    newest limit entries <:+ entries := by
  cases limit with
  | none => exact List.suffix_refl entries
  | some limit => exact List.drop_suffix _ entries

/-- The newest entries are no more than the limit. -/
theorem length_newest_le {α : Type} {limit : Option Nat} {n : Nat} (h : n ∈ limit)
    (entries : List α) : (newest limit entries).length ≤ n := by
  obtain rfl := Option.mem_def.1 h
  rw [newest, List.rtake, List.length_drop]
  omega

/-! ### The text of a history -/

/-- **Lines that keep their text** when they are written to a file: there is no line feed in them,
and no carriage return at their end. -/
structure IsLine (entry : String) : Prop where
  feedless : '\n' ∉ entry.toList
  returnless : entry.toList.getLast? ≠ some '\r'

/-- **Histories that are stored without loss.** -/
structure Storable (history : History) : Prop where
  isLine : ∀ entry ∈ history.entries, IsLine entry
  /-- A single empty entry is not told from no entry at all. -/
  ne_blank : history.entries ≠ [""]

/-- Entries with a line feed between them, and one more at the end. -/
theorem intercalate_append_feed {entries : List (List Char)} (h : entries ≠ []) :
    ['\n'].intercalate entries ++ ['\n'] = entries.flatMap (· ++ ['\n']) := by
  induction entries with
  | nil => exact absurd rfl h
  | cons entry rest ih =>
    by_cases h_rest : rest = []
    · subst h_rest
      simp
    · rw [List.intercalate_cons_of_ne_nil h_rest, List.append_assoc, List.append_assoc, ih h_rest,
        List.flatMap_cons, List.append_assoc]

/-- **Writing.** Every entry has a line feed behind it. -/
theorem toList_toText {history : History} (h : history.entries ≠ [""]) :
    history.toText.toList = (history.entries.map String.toList).flatMap (· ++ ['\n']) := by
  obtain ⟨entries⟩ := history
  by_cases h_nil : entries = []
  · subst h_nil
    rfl
  · have h_list : (String.intercalate "\n" entries).toList ++ ['\n'] =
        (entries.map String.toList).flatMap (· ++ ['\n']) := by
      rw [String.toList_intercalate]
      exact intercalate_append_feed (by simpa using h_nil)
    -- the text is empty for the history of one empty entry only
    have h_text : String.intercalate "\n" entries ≠ "" := by
      intro h_empty
      rw [h_empty] at h_list
      match entries, h_list with
      | [], _ => exact h_nil rfl
      | [entry], h_list =>
        have h_entry : entry = "" := by simpa using h_list.symm
        exact h (by rw [h_entry])
      | entry :: other :: rest, h_list =>
        have h_length := congrArg List.length h_list
        simp at h_length
        omega
    rw [toText, if_neg (by simpa using h_text), String.toList_push]
    exact h_list

/-- **Reading what was written:** every entry comes back, but for a carriage return at its end. -/
theorem ofText_toText {history : History} (h_blank : history.entries ≠ [""])
    (h_feedless : ∀ entry ∈ history.entries, '\n' ∉ entry.toList) :
    ofText history.toText =
      ⟨history.entries.map fun entry => String.ofList (Text.dropReturn entry.toList)⟩ := by
  have h_lists : ∀ line ∈ history.entries.map String.toList, '\n' ∉ line := by
    simpa using h_feedless
  rw [ofText, Text.lines, toList_toText h_blank, Text.linesOfPieces_flatMap h_lists,
    List.map_map, List.map_map]
  rfl

/-- **A history comes back as it was exactly if it is storable.** -/
theorem ofText_toText_iff {history : History} :
    ofText history.toText = history ↔ history.Storable := by
  constructor
  · intro h_back
    have h_blank : history.entries ≠ [""] := by
      intro h_eq
      obtain ⟨entries⟩ := history
      subst h_eq
      cases h_back
    -- what is read holds no line feed, so no entry did
    have h_feedless : ∀ entry ∈ history.entries, '\n' ∉ entry.toList := by
      intro entry h_mem
      rw [← h_back] at h_mem
      exact Text.notMem_of_mem_lines h_mem
    rw [ofText_toText h_blank h_feedless] at h_back
    refine ⟨fun entry h_mem => ⟨h_feedless entry h_mem, ?_⟩, h_blank⟩
    have h_map := (congrArg History.entries h_back).trans (List.map_id _).symm
    have h_same : String.ofList (Text.dropReturn entry.toList) = entry :=
      List.map_inj_left.1 h_map entry h_mem
    rw [← Text.dropReturn_eq_self_iff]
    simpa using congrArg String.toList h_same
  · intro h
    rw [ofText_toText h.ne_blank fun entry h_mem => (h.isLine entry h_mem).feedless]
    -- no entry has anything to lose
    have h_map : (history.entries.map fun entry => String.ofList (Text.dropReturn entry.toList)) =
        history.entries.map id := by
      refine List.map_inj_left.2 fun entry h_mem => ?_
      rw [Text.dropReturn_eq_self_iff.2 (h.isLine entry h_mem).returnless, String.ofList_toList, id]
    rw [h_map, List.map_id]

end PocketShell.History
