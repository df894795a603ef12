import PocketShell.Proofs.Token.Limits

/-!
# Spelling a command word

Every word but the empty one can be the command word of a line. There are three ways to write it:
between quotes, where only quotes and backslashes need a backslash (`Token.quote`); without quotes,
where blanks need one too (`Token.escapeWord`); and as it is, if there is nothing to escape. Each of
them is read back as the word (`CommandLine.ofString?_readsBack`), and the arguments that stand
behind it come back as they were written, without the blanks at their ends.

A quoted word ends itself, so arguments may follow it at once. A word without quotes is ended by a
blank; the blank counts as read, and to the arguments it would make no difference, since they are
trimmed.

A line has no command word exactly if it has no tokens (`CommandLine.ofString?_eq_none_iff`). The
line is split with a limit of one token, so this is a case of what a limit does
(`Scanner.Cut.finish_eq`).

The arguments of a command are trimmed before the command looks at them, and this may take a blank
from behind a backslash, where it belongs to a word. `CommandLine.SpelledAs.ofString?_trim` says
what is left of a word then.
-/

namespace PocketShell

/-- **Escaping a word.** A backslash in front of every blank, quote and backslash, so that the word
can be written without quotes. -/
def Token.escapeWord (word : String) : String :=
  String.ofList <| word.toList.flatMap fun c =>
    if Text.isBlank c ∨ c = '"' ∨ c = '\\' then ['\\', c] else [c]

/-- In plain text, the escaped word spells the word. -/
theorem Scanner.Mode.spells_escapeWord (word : String) :
    Mode.plain.Spells [] (Token.escapeWord word).toList word.toList := by
  rw [Token.escapeWord, String.toList_ofList]
  induction word.toList with
  | nil => exact .nil
  | cons c cs ih =>
    rw [List.flatMap_cons]
    by_cases h_special : Text.isBlank c = true ∨ c = '"' ∨ c = '\\'
    · rw [if_pos h_special]
      exact .escaped ih
    · rw [if_neg h_special]
      have h_keeps : Mode.plain.Keeps [] c := by simpa [Mode.Keeps] using h_special
      exact .content h_keeps ih

example : Token.escapeWord "my notes" = "my\\ notes" := by decide +kernel

namespace CommandLine

/-- **No command word.** A line is no command line exactly if it has no tokens. -/
theorem ofString?_eq_none_iff (line : String) : ofString? line = none ↔ tokenize line = [] := by
  obtain ⟨front, rest, h_line, h_cut⟩ :=
    Scanner.Cut.exists_eq_append (Scanner.new []) 1 line.toList
  have h_tokens : (scan line).finish.1 = (tokenize line).take 1 :=
    h_cut.finish_eq (by decide) h_line
  have h_word : ofString? line = none ↔ (scan line).finish.1.head? = none := Option.map_eq_none_iff
  rw [h_word, h_tokens, List.head?_eq_none_iff, List.take_eq_nil_iff]
  simp

/-- **Command words can be spelled and are read back.** For every word that is not empty, all
arguments and every blank:

* between quotes, with blanks behind the closing quote or without;
* with a backslash in front of each blank, quote and backslash, and the blank behind it;
* as it is, with the blank behind it, if it contains no blank, quote or backslash,

the word is the command word of the line and the arguments are its arguments. A line without a
command word is one that has no tokens. -/
theorem ofString?_readsBack :
    (∀ (word args : String) (blank : Char), word ≠ "" → Text.isBlank blank = true →
      (∀ gap : String, (∀ c ∈ gap.toList, Text.isBlank c = true) →
        ofString? (Token.join [⟨.doubleQuoted, word⟩] ++ gap ++ args) =
          some ⟨word, Text.trim args⟩) ∧
      ofString? ((Token.escapeWord word).push blank ++ args) = some ⟨word, Text.trim args⟩ ∧
      ((∀ c ∈ word.toList, Text.isBlank c = false ∧ c ≠ '"' ∧ c ≠ '\\') →
        ofString? (word.push blank ++ args) = some ⟨word, Text.trim args⟩)) ∧
    ∀ line : String, ofString? line = none ↔ tokenize line = [] := by
  refine ⟨fun word args blank h_some h_blank => ⟨fun gap h_gap => ?_, ?_, fun h_plain => ?_⟩,
    ofString?_eq_none_iff⟩
  · rw [String.append_assoc, ← Text.trim_append_of_blank h_gap args]
    exact ofString?_quote h_some (gap ++ args)
  · exact ofString?_push_of_spells h_some (Scanner.Mode.spells_escapeWord word) h_blank args
  · have h_keeps : ∀ c ∈ word.toList, Scanner.Mode.plain.Keeps [] c := by
      simpa [Scanner.Mode.Keeps] using h_plain
    exact ofString?_push_of_spells h_some (Scanner.Mode.spells_self h_keeps) h_blank args

/-- The arguments begin with a quote right behind the closing one, and with a backslash behind the
blank that ends the word; the word has a character of two bytes. -/
theorem ofString?_readsBack_cafe :
    "le café" ≠ "" ∧ Text.isBlank '\t' = true ∧
      ofString? "\"le café\"\"un\" " = some ⟨"le café", "\"un\""⟩ ∧
      ofString? "le\\ café\t\\ un" = some ⟨"le café", "\\ un"⟩ ∧
      "café" ≠ "" ∧ (∀ c ∈ "café".toList, Text.isBlank c = false ∧ c ≠ '"' ∧ c ≠ '\\') ∧
      ofString? "café\t\"un\"" = some ⟨"café", "\"un\""⟩ ∧
      ofString? "\"\"" = none := by
  have h_two : "le café" ≠ "" := by decide
  have h_one : "café" ≠ "" := by decide
  have h_tab : Text.isBlank '\t' = true := by decide
  have h_plain : ∀ c ∈ "café".toList, Text.isBlank c = false ∧ c ≠ '"' ∧ c ≠ '\\' :=
    List.forall_iff_forall_mem.1 (by decide)
  obtain ⟨h_words, h_none⟩ := ofString?_readsBack
  refine ⟨h_two, h_tab, ?_, ?_, h_one, h_plain, ?_, ?_⟩
  · exact (h_words "le café" "\"un\" " '\t' h_two h_tab).1 "" (List.forall_mem_nil _)
  · exact (h_words "le café" "\\ un" '\t' h_two h_tab).2.1
  · exact (h_words "café" "\"un\"" '\t' h_one h_tab).2.2 h_plain
  · exact (h_none "\"\"").2 (by decide +kernel)

end CommandLine

/-! ### Words at the beginning of a trimmed line

What stands behind the command word of a line has been trimmed before it is read as a word itself. A
blank at the end of it gets lost so if there is nothing behind it, although there is a backslash in
front of it. -/

namespace Scanner.Mode.Spells

/-- What is spelled without quotes begins with a word character or a backslash. -/
theorem head_not_blank {text read : List Char} (h : Mode.plain.Spells [] text read) :
    ∀ c ∈ text.head?, Text.isBlank c = false := by
  cases h with
  | nil => nofun
  | content h_keeps _ => exact fun _ h_c => Option.some.inj h_c ▸ h_keeps.1
  | escaped _ => exact fun _ h_c => Option.some.inj h_c ▸ by decide

theorem eq_nil {read : List Char} (h : Mode.plain.Spells [] [] read) : read = [] := by
  cases h
  rfl

/-- Without a backslash it is what is read. -/
theorem eq_of_notMem {text read : List Char} (h : Mode.plain.Spells [] text read)
    (h_backslash : '\\' ∉ text) : text = read := by
  induction h with
  | nil => rfl
  | content _ _ ih => rw [ih fun h_mem => h_backslash (List.mem_cons_of_mem _ h_mem)]
  | escaped _ _ => exact absurd List.mem_cons_self h_backslash

/-- What is spelled without quotes ends so too, but for a blank with a backslash in front of it. -/
theorem last_cases {text read : List Char} (h : Mode.plain.Spells [] text read) :
    (∀ c ∈ text.getLast?, Text.isBlank c = false) ∨
      ∃ front before blank, text = front ++ ['\\', blank] ∧ Text.isBlank blank = true ∧
        Mode.plain.Spells [] front before := by
  induction h with
  | nil => exact .inl nofun
  | @content c text read h_keeps _ ih =>
    rcases ih with h_last | ⟨front, before, blank, rfl, h_blank, h_front⟩
    · refine .inl fun d h_d => ?_
      rw [List.getLast?_cons] at h_d
      cases h_rest : text.getLast? with
      | none =>
        rw [h_rest] at h_d
        exact Option.some.inj h_d ▸ h_keeps.1
      | some e =>
        rw [h_rest] at h_d
        exact Option.some.inj h_d ▸ h_last e h_rest
    · exact .inr ⟨c :: front, c :: before, blank, rfl, h_blank, .content h_keeps h_front⟩
  | @escaped c text read h_rest ih =>
    rcases ih with h_last | ⟨front, before, blank, rfl, h_blank, h_front⟩
    · cases h_rest with
      | nil =>
        by_cases h_blank : Text.isBlank c = true
        · exact .inr ⟨[], [], c, rfl, h_blank, .nil⟩
        · exact .inl (by simpa using h_blank)
      | content _ _ => exact .inl (by simpa using h_last)
      | escaped _ => exact .inl (by simpa using h_last)
    · exact .inr ⟨'\\' :: c :: front, c :: before, blank, rfl, h_blank, .escaped h_front⟩

end Scanner.Mode.Spells

namespace CommandLine

/-- **Spelling a word,** with backslashes or without, outside quotes or between them. -/
inductive SpelledAs (word : String) : String → Prop where
  | unquoted {text : String} : Scanner.Mode.plain.Spells [] text.toList word.toList →
      SpelledAs word text
  | quoted {body : String} : Scanner.Mode.quoted.Spells [] body.toList word.toList →
      SpelledAs word ("\"" ++ body ++ "\"")

/-- What is spelled up to a backslash at the end of the line has no arguments. -/
theorem args_of_backslash {front before : List Char} (h : Scanner.Mode.plain.Spells [] front before)
    {line : CommandLine} (h_line : ofString? (String.ofList (front ++ ['\\'])) = some line) :
    line.args = "" := by
  have h_consumed : (scan (String.ofList (front ++ ['\\']))).consumed =
      (String.ofList (front ++ ['\\'])).utf8ByteSize := by
    have h_front := @Scanner.foldl_step_of_spells (Scanner.new [] 1) _ _ _ _ h (by decide) rfl
      rfl rfl rfl
    rw [scan, Scanner.append_eq_foldl, String.toList_ofList, List.foldl_append, h_front,
      List.foldl_cons, List.foldl_nil, Scanner.step_of_room rfl]
    have h_backslash : '\\'.utf8Size = "\\".utf8ByteSize := by decide
    simp [Scanner.keep, Scanner.new, h_backslash]
  rw [ofString?_eq_map (dropBytes?_of_consumed h_consumed), Option.map_eq_some_iff] at h_line
  obtain ⟨word, -, rfl⟩ := h_line
  rfl

variable {word text : String}

/-- A spelling is solid, unless it ends with a blank that has a backslash in front of it. -/
theorem SpelledAs.solid_or (h_word : word ≠ "") (h : SpelledAs word text) :
    Text.Solid text ∨ ∃ front before blank, text.toList = front ++ ['\\', blank] ∧
      Text.isBlank blank = true ∧ Scanner.Mode.plain.Spells [] front before ∧
        Scanner.Mode.plain.Spells [] text.toList word.toList := by
  cases h with
  | @quoted body h_body => exact .inl (Text.solid_quotes body)
  | unquoted h_text =>
    rcases h_text.last_cases with h_last | ⟨front, before, blank, h_list, h_blank, h_front⟩
    · refine .inl ⟨fun h_empty => h_word ?_, h_text.head_not_blank, h_last⟩
      rw [h_empty] at h_text
      exact String.toList_eq_nil_iff.1 h_text.eq_nil
    · exact .inr ⟨front, before, blank, h_list, h_blank, h_front, h_text⟩

/-- A word without quotes and backslashes is written as it is. -/
theorem SpelledAs.eq_of_bare (h_word : word ≠ "") (h : SpelledAs word text)
    (h_quote : '"' ∉ text.toList) (h_backslash : '\\' ∉ text.toList) :
    text = word ∧ Text.Solid text := by
  constructor
  · cases h with
    | quoted _ => exact absurd (by simp) h_quote
    | unquoted h_text => exact String.toList_inj.1 (h_text.eq_of_notMem h_backslash)
  · refine (h.solid_or h_word).resolve_right ?_
    rintro ⟨front, -, blank, h_list, -⟩
    exact h_backslash (by simp [h_list])

/-- Only a word between quotes begins with a quote. -/
theorem SpelledAs.quoted_of_head (h : SpelledAs word text) (h_head : text.toList.head? = some '"') :
    ∃ body, text = "\"" ++ body ++ "\"" ∧
      Scanner.Mode.quoted.Spells [] body.toList word.toList := by
  cases h with
  | @quoted body h_body => exact ⟨body, rfl, h_body⟩
  | unquoted h_text =>
    obtain ⟨rest, h_list⟩ := List.head?_eq_some_iff.1 h_head
    rw [h_list] at h_text
    generalize word.toList = read at h_text
    cases h_text with
    | content h_keeps _ => exact absurd rfl h_keeps.2.1

/-- **A spelled word at the beginning of a line** that is trimmed. -/
theorem SpelledAs.ofString?_trim (h_word : word ≠ "") (h : SpelledAs word text) (args : String) :
    ofString? (Text.trim (text ++ " " ++ args)) = some ⟨word, Text.trim args⟩ ∨
      (¬ Text.Solid text ∧ Text.trim args = "" ∧
        ∀ line, ofString? (Text.trim (text ++ " " ++ args)) = some line → line.args = "") := by
  by_cases h_solid : Text.Solid text
  · left
    cases h with
    | quoted h_body => exact ofString?_trim_of_quotes h_word h_body args
    | unquoted h_text => exact ofString?_trim_of_spells h_word h_text h_solid args
  obtain ⟨front, before, blank, h_list, h_blank, h_front, h_text⟩ :=
    (h.solid_or h_word).resolve_left h_solid
  -- up to the backslash the text is solid
  let kept := String.ofList (front ++ ['\\'])
  have h_kept : Text.Solid kept := by
    refine ⟨by simp [kept], fun c h_c => h_text.head_not_blank c ?_, fun c h_c => ?_⟩
    · rw [h_list]
      cases front with
      | nil => simpa [kept] using h_c
      | cons d ds => simpa [kept] using h_c
    · obtain rfl : '\\' = c := by simpa [kept] using h_c
      decide
  have h_line : text ++ " " ++ args = kept ++ (String.ofList [blank, ' '] ++ args) := by
    apply String.toList_inj.1
    simp [kept, h_list]
  have h_gap : ∀ c ∈ (String.ofList [blank, ' ']).toList, Text.isBlank c = true := by
    rw [String.toList_ofList]
    exact List.forall_mem_cons.2 ⟨h_blank, List.forall_mem_singleton.2 (by decide)⟩
  by_cases h_args : Text.trim args = ""
  · -- there is nothing behind the word, and its last blank is lost
    refine .inr ⟨h_solid, h_args, ?_⟩
    have h_end : Text.trimEnd (String.ofList [blank, ' '] ++ args) = "" := by
      rw [Text.trimEnd, String.toList_append, List.rdropWhile_eq_nil_iff.2, String.ofList_nil]
      exact List.forall_mem_append.2 ⟨h_gap, Text.isBlank_of_trim_eq_empty h_args⟩
    rw [h_line, Text.trim_append h_kept, h_end, String.append_empty]
    exact fun line h_some => args_of_backslash h_front h_some
  · left
    have h_back : kept ++ (String.ofList [blank, ' '] ++ Text.trimEnd args) =
        text ++ (" " ++ Text.trimEnd args) := by
      apply String.toList_inj.1
      simp [kept, h_list]
    have h_head : ∀ c ∈ (" " ++ Text.trimEnd args).toList.head?, Text.isBlank c = true := by
      intro c h_c
      obtain rfl : ' ' = c := by simpa using h_c
      decide
    rw [h_line, Text.trim_append h_kept, Text.trimEnd_append h_args, h_back,
      ofString?_of_spells h_word h_text h_head, Text.trim_blank_append, Text.trim_trimEnd]

end CommandLine

end PocketShell
