import PocketShell.Proofs.Text.Trimming
import PocketShell.Proofs.Token.Reading
import PocketShell.Token.CommandLine

/-!
# Command words that a text determines

The command word of a line is the first token of the line, and the rest of the line need not be read
for it once that token has ended. A text that has blanks or nothing behind it determines the command
word, if it has ended its first token or would end it at a blank; `CommandLine.ownWord?` is the word
then. A blank text, a text that ends in a backslash and a text that leaves a quote open determine no
command word: there it depends on what is behind them.

`CommandLine.word_of_ownWord?` gives the command word of a line that begins with a text of the first
sort.
-/

namespace PocketShell

theorem Scanner.emitted_step_of_isBlank {scanner : Scanner} (h : scanner.full = false)
    (h_plain : scanner.mode = .plain) (h_escaped : scanner.escaped = false) {c : Char}
    (h_blank : Text.isBlank c = true) : (scanner.step c).emitted = scanner.flush.emitted := by
  rw [step_of_room h, take_blank h_escaped h_plain h_blank]
  rfl

namespace CommandLine

def scan (line : String) : Scanner :=
  (Scanner.new [] 1).append line

theorem map_word_ofString? (line : String) :
    (ofString? line).map word = (scan line).flush.emitted[0]?.map Token.content := by
  unfold ofString?
  rw [Option.map_map, Scanner.finish, List.head?_eq_getElem?, Array.getElem?_toList]
  rfl

/-- **The word that a text determines** when blanks or nothing stand behind it: a token that has
ended, or plain characters that a blank would end. -/
def ownWord? (text : String) : Option String :=
  let scanner := scan (Text.trim text)
  if scanner.full then scanner.emitted[0]?.map Token.content
  else if scanner.mode = .plain ∧ scanner.escaped = false ∧ scanner.pending ≠ "" then
    some scanner.pending
  else none

theorem trimBlanks_ne_nil_of_ownWord? {text own : String} (h : ownWord? text = some own) :
    Text.trimBlanks text.toList ≠ [] := by
  intro h_nil
  have h_trim : Text.trim text = "" := by
    rw [Text.trim, h_nil]
  rw [ownWord?, h_trim] at h
  cases h

section Plain

variable {scanner : Scanner} (h_limit : scanner.limit = some 1) (h_room : scanner.full = false)
  (h_plain : scanner.mode = .plain) (h_escaped : scanner.escaped = false)
  (h_pending : scanner.pending ≠ "")

include h_limit h_room h_plain h_pending in
/-- A scanner with room for one token that holds plain characters: they would be the only token. -/
theorem emitted_flush_of_plain : scanner.flush.emitted = #[⟨.text, scanner.pending⟩] := by
  -- there is room for one token, so none was emitted yet
  have h_empty : scanner.emitted = #[] := by
    apply Array.eq_empty_of_size_eq_zero
    simpa [Scanner.full, h_limit] using h_room
  rw [Scanner.emitted_flush_of_pending h_room h_pending, h_plain, h_empty]
  rfl

include h_limit h_room h_plain h_escaped h_pending in
/-- A blank makes them the token, and nothing more is read. -/
theorem step_of_plain {c : Char} (h_blank : Text.isBlank c = true) :
    (scanner.step c).emitted = #[⟨.text, scanner.pending⟩] ∧ (scanner.step c).full = true := by
  have h_step : (scanner.step c).emitted = #[⟨.text, scanner.pending⟩] := by
    rw [Scanner.emitted_step_of_isBlank h_room h_plain h_escaped h_blank,
      emitted_flush_of_plain h_limit h_room h_plain h_pending]
  exact ⟨h_step, by simp [Scanner.full, h_step, h_limit]⟩

include h_limit h_room h_plain h_escaped h_pending in
/-- They become the token, if what follows begins with a blank or there is nothing more. -/
theorem emitted_append_of_plain {rest : List Char}
    (h_head : ∀ c ∈ rest.head?, Text.isBlank c = true) :
    (scanner.append (String.ofList rest)).flush.emitted = #[⟨.text, scanner.pending⟩] := by
  cases rest with
  | nil => exact emitted_flush_of_plain h_limit h_room h_plain h_pending
  | cons c cs =>
    obtain ⟨h_step, h_full⟩ :=
      step_of_plain h_limit h_room h_plain h_escaped h_pending (h_head c rfl)
    have h_append : scanner.append (String.ofList (c :: cs)) =
        (scanner.step c).append (String.ofList cs) := by
      simp [Scanner.append_eq_foldl]
    rw [h_append, Scanner.append_of_full h_full, Scanner.emitted_flush_of_full h_full, h_step]

end Plain

/-- **The command word of a line that begins with a text of its own word** is that word, whatever
stands behind the text. -/
theorem word_of_ownWord? {text own : String} (h : ownWord? text = some own) (args : String) :
    (ofString? (Text.trim (text ++ " " ++ args))).map word = some own := by
  obtain ⟨rest, h_rest, h_head⟩ := Text.trimBlanks_append_blank (trimBlanks_ne_nil_of_ownWord? h)
    (show Text.isBlank ' ' = true by decide) args.toList
  have h_line : Text.trim (text ++ " " ++ args) = Text.trim text ++ String.ofList rest := by
    apply String.toList_inj.1
    simpa using h_rest
  have h_scan : scan (Text.trim (text ++ " " ++ args)) =
      (scan (Text.trim text)).append (String.ofList rest) := by
    rw [scan, scan, h_line, Scanner.append_append]
  rw [map_word_ofString?, h_scan]
  unfold ownWord? at h
  dsimp only at h
  split at h
  · next h_full => rw [Scanner.append_of_full h_full, Scanner.emitted_flush_of_full h_full, h]
  · next h_full =>
    have h_room := Bool.eq_false_iff.2 h_full
    split at h
    · next h_state =>
      rw [emitted_append_of_plain (Scanner.limit_append _ _) h_room h_state.1 h_state.2.1
        h_state.2.2 h_head]
      simpa using h
    · cases h

example : ownWord? " cat \"two words\"" = some "cat" := by rfl

-- what is behind these texts would become part of the word
example : [" ", "cat\\", "\"cat"].map ownWord? = [none, none, none] := by rfl

end CommandLine

end PocketShell
