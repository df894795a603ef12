import Mathlib.Data.List.Forall2
import PocketShell.Proofs.Pair.Groups

/-!
# What the entries of a line account for

Reading from the right end takes two or three tokens at a time, so one malformed group can make
signs of what were keys to the left of it. Nothing gets lost on the way: `Pair.Reports` says that an
entry is what a piece of the line spells, and the pieces that the entries of a line report stand one
behind the other. They cover the line from its first token on or from its second one on, so a first
token is all that can go unreported, and nothing is reported twice (`Pair.parse_accounts`).

The pieces are the tokens of the groups (`Pair.groups`). A group spells its entry whatever its
tokens are (`Pair.Group.reports`): the sign of a pair is written out in the text of the pair, and a
malformed group is reported as it stands.
-/

namespace PocketShell.Pair

/-- **The text of an entry:** a pair as it would be written, or what is reported as malformed. -/
def entryText : Except Error Pair → String
  | .ok pair => pair.key ++ "=" ++ pair.value
  | .error (.malformedPair text) => text
  | .error error => error.message

/-- **Reporting a piece of a line.** The piece is given by the contents of its tokens, and the entry
is a pair with a key or a malformed group. -/
structure Reports (piece : List String) (entry : Except Error Pair) : Prop where
  length : piece.length = 2 ∨ piece.length = 3
  /-- The entry has the text of the tokens, one after the other. -/
  text : entryText entry = String.join piece
  key_ne : ∀ pair, entry = .ok pair → pair.key ≠ ""
  malformed : ∀ error, entry = .error error → error = .malformedPair (String.join piece)

/-! ### Groups -/

/-- The text of three parts is the three parts, whether they make a pair or not. -/
theorem entryText_ofParts (key middle value : String) :
    entryText (ofParts key middle value) = key ++ middle ++ value := by
  unfold ofParts
  split
  · rfl
  · next h_pair =>
    rw [not_or, not_not] at h_pair
    rw [h_pair.2]
    rfl

namespace Group

/-- The parts of a group are the contents of its tokens. What stands for a missing one is empty. -/
theorem join_content_tokens (group : Group) :
    String.join (group.tokens.map Token.content) =
      group.key ++ group.sign.content ++ group.value := by
  cases group with
  | whole key sign value => simp [tokens, Group.key, Group.sign, Group.value, String.join]
  | noValue key sign => simp [tokens, Group.key, Group.sign, Group.value, String.join]
  | noKey sign value => simp [tokens, Group.key, Group.sign, Group.value, String.join]

theorem length_tokens (group : Group) : group.tokens.length = 2 ∨ group.tokens.length = 3 := by
  cases group with
  | whole key sign value => exact .inr rfl
  | noValue key sign => exact .inl rfl
  | noKey sign value => exact .inl rfl

/-- **The entry of a group reports its tokens.** -/
theorem reports (group : Group) : Reports (group.tokens.map Token.content) group.entry where
  length := by
    rw [List.length_map]
    exact group.length_tokens
  text := by rw [entry, entryText_ofParts, join_content_tokens]
  key_ne pair h_pair := by
    have h_some : group.pair? = some pair := by rw [pair?, h_pair, Except.toOption]
    obtain ⟨h_key, -, rfl⟩ := pair?_eq_some_iff.1 h_some
    exact h_key
  malformed error h_error := by
    rw [join_content_tokens]
    unfold entry ofParts at h_error
    split at h_error
    · cases h_error
      rfl
    · cases h_error

end Group

/-! ### Lines -/

/-- Without its first token at most, a list is itself or its tail. -/
theorem eq_or_eq_tail_of_append {left covered all : List String} (h_left : left.length ≤ 1)
    (h_all : left ++ covered = all) : covered = all ∨ covered = all.tail := by
  match left, h_left with
  | [], _ => exact .inl h_all
  | [_], _ => exact .inr (congrArg List.tail h_all)

/-- The texts of entries are those of the pieces that they report. -/
theorem join_map_entryText {pieces : List (List String)} {entries : List (Except Error Pair)}
    (h : List.Forall₂ Reports pieces entries) :
    String.join (entries.map entryText) = String.join pieces.flatten := by
  induction h with
  | nil => rfl
  | cons h_first _ ih =>
    rw [List.map_cons, String.join_cons, h_first.text, ih, List.flatten_cons, String.join_append]

/-- Entries are at most half as many as the tokens that they report. -/
theorem length_entries_le {pieces : List (List String)} {entries : List (Except Error Pair)}
    (h : List.Forall₂ Reports pieces entries) : 2 * entries.length ≤ pieces.flatten.length := by
  induction h with
  | nil => exact Nat.le_refl 0
  | cons h_first _ ih =>
    have h_two := h_first.length
    rw [List.length_cons, List.flatten_cons, List.length_append]
    omega

/-- **The entries of a line account for its tokens.** Let a line have tokens that are not blank.

* If there are two of them or more, they fall into pieces of two or three tokens, up to a first
  token that may be left over. The pieces stand one behind the other, and each is reported by one
  entry, in order: by a pair with a key, or by a malformed group. The texts of the entries are the
  tokens, one after the other, from the first or the second one on, and there are at most half as
  many entries as tokens.
* Otherwise there is one entry, and it is malformed: it reports the token, or nothing. -/
theorem parse_accounts (line : String) :
    (2 ≤ (contents line).length →
      (∃ pieces : List (List String), List.Forall₂ Reports pieces (parse line) ∧
        (pieces.flatten = contents line ∨ pieces.flatten = (contents line).tail)) ∧
      (String.join ((parse line).map entryText) = String.join (contents line) ∨
        String.join ((parse line).map entryText) = String.join (contents line).tail) ∧
      2 * (parse line).length ≤ (contents line).length) ∧
    ((contents line).length < 2 →
      parse line = [.error (.malformedPair (String.join (contents line)))]) := by
  have h_contents : contents line = (significant line).map Token.content := rfl
  constructor
  · intro h_long
    rw [h_contents, List.length_map] at h_long
    obtain ⟨left, h_left, h_tokens⟩ := exists_append_tokens line
    let pieces := (groups line).map fun group => group.tokens.map Token.content
    have h_reports : List.Forall₂ Reports pieces (parse line) := by
      rw [parse_eq_map_entry h_long, List.forall₂_map_left_iff, List.forall₂_map_right_iff]
      exact List.forall₂_same.2 fun group _ => group.reports
    have h_cover : left.map Token.content ++ pieces.flatten = contents line := by
      rw [h_contents, ← h_tokens, List.map_append, List.map_flatMap]
      rfl
    have h_left' : (left.map Token.content).length ≤ 1 := by rwa [List.length_map]
    have h_pieces := eq_or_eq_tail_of_append h_left' h_cover
    refine ⟨⟨pieces, h_reports, h_pieces⟩, ?_, ?_⟩
    · rw [join_map_entryText h_reports]
      exact h_pieces.imp (congrArg String.join) (congrArg String.join)
    · calc 2 * (parse line).length ≤ pieces.flatten.length := length_entries_le h_reports
        _ ≤ (contents line).length := by
          rw [← h_cover, List.length_append]
          exact Nat.le_add_left _ _
  · intro h_short
    rw [h_contents, List.length_map] at h_short
    exact (parse_of_short h_short).2

/-- A group without a sign, a key without a value and a pair stand behind a token left over. -/
theorem parse_accounts_lost :
    2 ≤ (contents "lost a b c k= x=1").length ∧
      parse "lost a b c k= x=1" = [.error (.malformedPair "abc"), .ok ⟨"k", ""⟩, .ok ⟨"x", "1"⟩] ∧
      (∃ pieces : List (List String), List.Forall₂ Reports pieces (parse "lost a b c k= x=1") ∧
        pieces.flatten = ["a", "b", "c", "k", "=", "x", "=", "1"]) ∧
      String.join ((parse "lost a b c k= x=1").map entryText) = "abck=x=1" ∧
      parse "lost" = [.error (.malformedPair "lost")] := by
  have h_contents : contents "lost a b c k= x=1" =
      ["lost", "a", "b", "c", "k", "=", "x", "=", "1"] := by
    decide +kernel
  have h_parse : parse "lost a b c k= x=1" =
      [.error (.malformedPair "abc"), .ok ⟨"k", ""⟩, .ok ⟨"x", "1"⟩] := by
    simp [parse, h_contents, scan, ofParts]
  have h_two : 2 ≤ (contents "lost a b c k= x=1").length := by
    rw [h_contents]
    decide
  obtain ⟨⟨pieces, h_reports, h_pieces⟩, -, -⟩ := (parse_accounts "lost a b c k= x=1").1 h_two
  have h_only : contents "lost" = ["lost"] := by decide +kernel
  have h_one := (parse_accounts "lost").2 (by rw [h_only]; decide)
  rw [h_only] at h_one
  rw [h_contents] at h_pieces
  have h_text := join_map_entryText h_reports
  rw [h_parse] at h_text
  refine ⟨h_two, h_parse, ⟨pieces, h_reports, ?_⟩, by rw [h_parse]; rfl, h_one⟩
  -- with the token that is left over, the pieces would have another text
  refine h_pieces.resolve_left fun h_all => ?_
  rw [h_all] at h_text
  exact absurd h_text (by decide)

end PocketShell.Pair
