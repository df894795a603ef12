import PocketShell.Proofs.Token.CommandWord

/-!
# Command words that are spelled out

A text between quotes is one token, whatever it contains. `Token.quote` spells it, and a line that
begins with the spelling has that text as its command word and the rest of the line as its arguments
(`CommandLine.ofString?_quote`). A word without special characters can be written as it is, with a
blank behind it (`CommandLine.ofString?_trim_plain`).

Both are cases of what can be spelled with backslashes, between quotes
(`CommandLine.ofString?_of_quotes`) and without them (`CommandLine.ofString?_of_spells`). The
arguments are what has not been read of the line, and this is told from the bytes that were counted:
the closing quote counts as read, and so does the blank that ends a word without quotes.
-/

namespace PocketShell

/-- Dropping as many bytes as a front has leaves what stands behind it. -/
theorem dropBytes?_append (front rest : List Char) :
    dropBytes? (front ++ rest) (String.ofList front).utf8ByteSize = some rest := by
  induction front with
  | nil =>
    rw [String.ofList_nil, String.utf8ByteSize_empty, List.nil_append]
    cases rest <;> rfl
  | cons c cs ih =>
    -- the first character has a byte at least
    have h_pos := c.utf8Size_pos
    let bytes := (String.ofList cs).utf8ByteSize
    have h_size : (String.ofList (c :: cs)).utf8ByteSize = c.utf8Size - 1 + bytes + 1 := by
      simp
      omega
    have h_left : c.utf8Size - 1 + bytes + 1 - c.utf8Size = bytes := by omega
    rw [h_size, List.cons_append, dropBytes?, if_pos (by omega), h_left, ih]

/-- What stands between quotes is solid, whatever it is. -/
theorem Text.solid_quotes (body : String) : Solid ("\"" ++ body ++ "\"") := by
  have h_quote : Solid "\"" := .of_not_blank (by decide) (List.forall_mem_singleton.2 (by decide))
  exact h_quote.append h_quote body

namespace Token

/-- **Quoting.** The spelling of a text between double quotes. -/
def quote (content : String) : String :=
  join [⟨.doubleQuoted, content⟩]

theorem quote_eq_spelling (content : String) :
    quote content = spelling ⟨.doubleQuoted, content⟩ := by
  apply String.toList_inj.1
  simp [quote]

theorem toList_quote (content : String) :
    (quote content).toList = '"' :: ((Text.escape ['"', '\\'] content).toList ++ ['"']) := by
  rw [quote_eq_spelling]
  simp [spelling, Kind.quote?]

theorem quote_eq (content : String) :
    quote content = "\"" ++ Text.escape ['"', '\\'] content ++ "\"" := by
  rw [quote_eq_spelling, spelling_doubleQuoted]

theorem quote_solid (content : String) : Text.Solid (quote content) := by
  rw [quote_eq]
  exact Text.solid_quotes _

end Token

namespace CommandLine

/-- The arguments of a command line are what has not been consumed. -/
theorem ofString?_eq_map {line : String} {rest : List Char}
    (h : dropBytes? line.toList (scan line).consumed = some rest) :
    ofString? line =
      (scan line).finish.1.head?.map fun word =>
        ⟨word.content, Text.trim (String.ofList rest)⟩ := by
  have h_rest : (dropBytes? line.toList ((Scanner.new [] 1).append line).consumed).getD [] =
      (String.ofList rest).toList := by
    rw [String.toList_ofList]
    exact congrArg (·.getD []) h
  unfold ofString?
  dsimp only
  rw [h_rest]
  rfl

/-- Of a line that was read to its end nothing is left. -/
theorem dropBytes?_of_consumed {line : String} (h : (scan line).consumed = line.utf8ByteSize) :
    dropBytes? line.toList (scan line).consumed = some [] := by
  have h_drop := dropBytes?_append line.toList []
  rwa [List.append_nil, String.ofList_toList, ← h] at h_drop

/-- **The first token of a line has ended.** Then it is the command word, and the rest of the line
is the arguments. -/
theorem ofString?_append {front : String} (word : Token) (h_full : (scan front).full = true)
    (h_emitted : (scan front).emitted = #[word])
    (h_consumed : (scan front).consumed = front.utf8ByteSize) (rest : String) :
    ofString? (front ++ rest) = some ⟨word.content, Text.trim rest⟩ := by
  have h_scan : scan (front ++ rest) = scan front := by
    rw [scan, Scanner.append_append]
    exact Scanner.append_of_full h_full rest
  have h_tokens : (scan front).finish.1 = [word] := by
    rw [Scanner.finish, Scanner.emitted_flush_of_full h_full, h_emitted]
  have h_rest : dropBytes? (front ++ rest).toList (scan (front ++ rest)).consumed =
      some rest.toList := by
    have h_drop := dropBytes?_append front.toList rest.toList
    rwa [String.ofList_toList, ← String.toList_append, ← h_consumed, ← h_scan] at h_drop
  rw [ofString?_eq_map h_rest, h_scan, h_tokens, String.ofList_toList]
  rfl

/-- **A command word between quotes,** with whatever stands behind it. -/
theorem ofString?_of_quotes {body word : String} (h : word ≠ "")
    (h_body : Scanner.Mode.quoted.Spells [] body.toList word.toList) (rest : String) :
    ofString? ("\"" ++ body ++ "\"" ++ rest) = some ⟨word, Text.trim rest⟩ := by
  let scanner := Scanner.new [] 1
  let text := "\"" ++ body ++ "\""
  have h_scan : scan text =
      { scanner.emit .doubleQuoted word with consumed := 0 + text.utf8ByteSize } := by
    rw [scan, Scanner.append_eq_foldl]
    have h_outside : scanner.mode ≠ .quoted := by decide
    exact Scanner.foldl_step_quotes rfl rfl rfl h_outside h_body h
  refine ofString?_append ⟨.doubleQuoted, word⟩ ?_ ?_ ?_ rest
  · show (scan text).full = true
    rw [h_scan]
    rfl
  · show (scan text).emitted = _
    rw [h_scan]
    rfl
  · show (scan text).consumed = text.utf8ByteSize
    rw [h_scan]
    exact Nat.zero_add _

/-- **A quoted command word.** -/
theorem ofString?_quote {word : String} (h : word ≠ "") (rest : String) :
    ofString? (Token.quote word ++ rest) = some ⟨word, Text.trim rest⟩ := by
  rw [Token.quote_eq]
  exact ofString?_of_quotes h (Scanner.Mode.spells_escape [] word) rest

/-- **A command word without quotes,** with a blank behind it or nothing. -/
theorem ofString?_of_spells {text word : String} (h : word ≠ "")
    (h_text : Scanner.Mode.plain.Spells [] text.toList word.toList) {rest : String}
    (h_head : ∀ c ∈ rest.toList.head?, Text.isBlank c = true) :
    ofString? (text ++ rest) = some ⟨word, Text.trim rest⟩ := by
  let ready := (Scanner.new [] 1).keep word text.utf8ByteSize
  have h_pending : ready.pending ≠ "" := by simpa [ready, Scanner.keep, Scanner.new] using h
  have h_scan : scan (text ++ rest) = ready.append rest := by
    have h_read := @Scanner.foldl_step_of_spells (Scanner.new [] 1) _ _ _ _ h_text (by decide) rfl
      rfl rfl rfl
    rw [String.ofList_toList, String.ofList_toList, ← Scanner.append_eq_foldl] at h_read
    rw [scan, Scanner.append_append, h_read]
  have h_tokens : (scan (text ++ rest)).finish.1 = [⟨.text, word⟩] := by
    have h_end := @emitted_append_of_plain ready rfl rfl rfl rfl h_pending _ h_head
    rw [String.ofList_toList, ← h_scan] at h_end
    rw [Scanner.finish, h_end]
    simp [ready, Scanner.keep, Scanner.new]
  -- what is left is the rest, or the rest without the blank that ended the word
  obtain ⟨left, h_left, h_trim⟩ : ∃ left,
      dropBytes? (text ++ rest).toList (scan (text ++ rest)).consumed = some left ∧
        Text.trim (String.ofList left) = Text.trim rest := by
    have h_bytes : ready.consumed = text.utf8ByteSize := by
      simp [ready, Scanner.keep, Scanner.new]
    cases h_rest : rest.toList with
    | nil =>
      obtain rfl := String.toList_eq_nil_iff.1 h_rest
      have h_consumed : (scan (text ++ "")).consumed = text.utf8ByteSize := by
        rw [h_scan, ← h_bytes]
        rfl
      rw [String.append_empty] at h_consumed ⊢
      exact ⟨[], dropBytes?_of_consumed h_consumed, rfl⟩
    | cons blank cs =>
      have h_blank : Text.isBlank blank = true := h_head blank (by rw [h_rest]; rfl)
      obtain ⟨-, h_full⟩ := @step_of_plain ready rfl rfl rfl rfl h_pending _ h_blank
      have h_consumed : (scan (text ++ rest)).consumed = (text.push blank).utf8ByteSize := by
        rw [h_scan, Scanner.append_eq_foldl, h_rest, List.foldl_cons,
          Scanner.foldl_step_of_full h_full, Scanner.step_of_room rfl]
        simp [h_bytes]
      have h_drop := dropBytes?_append (text.push blank).toList cs
      have h_list : (text ++ rest).toList = (text.push blank).toList ++ cs := by simp [h_rest]
      rw [String.ofList_toList, ← h_list, ← h_consumed] at h_drop
      refine ⟨cs, h_drop, ?_⟩
      have h_again : rest = String.singleton blank ++ String.ofList cs := by
        apply String.toList_inj.1
        simp [h_rest]
      rw [h_again, Text.trim_append_of_blank]
      simpa using h_blank
  rw [ofString?_eq_map h_left, h_tokens, h_trim]
  rfl

/-- A command word without quotes, and the blank that ends it. -/
theorem ofString?_push_of_spells {text word : String} (h : word ≠ "")
    (h_text : Scanner.Mode.plain.Spells [] text.toList word.toList) {blank : Char}
    (h_blank : Text.isBlank blank = true) (args : String) :
    ofString? (text.push blank ++ args) = some ⟨word, Text.trim args⟩ := by
  have h_line : text.push blank ++ args = text ++ (String.singleton blank ++ args) := by
    apply String.toList_inj.1
    simp
  have h_gap : ∀ c ∈ (String.singleton blank).toList, Text.isBlank c = true := by
    simpa using h_blank
  have h_head : ∀ c ∈ (String.singleton blank ++ args).toList.head?, Text.isBlank c = true := by
    simpa using h_blank
  rw [h_line, ofString?_of_spells h h_text h_head, Text.trim_append_of_blank h_gap]

/-! ### Trimmed lines

A line is trimmed before it is cut, and so are its arguments. A solid text keeps its place at the
beginning of the line. -/

/-- A line that begins with a solid spelling, without quotes, of a command word. -/
theorem ofString?_trim_of_spells {text word : String} (h : word ≠ "")
    (h_text : Scanner.Mode.plain.Spells [] text.toList word.toList) (h_solid : Text.Solid text)
    (args : String) :
    ofString? (Text.trim (text ++ " " ++ args)) = some ⟨word, Text.trim args⟩ := by
  have h_head : ∀ c ∈ (Text.trimEnd (" " ++ args)).toList.head?, Text.isBlank c = true := by
    intro c h_c
    rw [Text.toList_trimEnd] at h_c
    obtain rfl : ' ' = c := by simpa using Text.mem_head?_of_rdropWhile h_c
    decide
  rw [String.append_assoc, Text.trim_append h_solid, ofString?_of_spells h h_text h_head,
    Text.trim_trimEnd, Text.trim_blank_append]

/-- A line that begins with a command word without special characters. -/
theorem ofString?_trim_plain {word : String} (h : word ≠ "")
    (h_plain : ∀ c ∈ word.toList, Scanner.Mode.plain.Keeps [] c) (args : String) :
    ofString? (Text.trim (word ++ " " ++ args)) = some ⟨word, Text.trim args⟩ :=
  ofString?_trim_of_spells h (Scanner.Mode.spells_self h_plain)
    (.of_not_blank h fun c h_c => (h_plain c h_c).1) args

/-- A line that begins with a command word between quotes. -/
theorem ofString?_trim_of_quotes {body word : String} (h : word ≠ "")
    (h_body : Scanner.Mode.quoted.Spells [] body.toList word.toList) (args : String) :
    ofString? (Text.trim ("\"" ++ body ++ "\"" ++ " " ++ args)) = some ⟨word, Text.trim args⟩ := by
  rw [String.append_assoc, Text.trim_append (Text.solid_quotes body), ofString?_of_quotes h h_body,
    Text.trim_trimEnd, Text.trim_blank_append]

end CommandLine

end PocketShell
