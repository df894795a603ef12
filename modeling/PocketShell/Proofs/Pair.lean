import PocketShell.Environment
import PocketShell.Pair
import PocketShell.Proofs.Token.Joined
import PocketShell.Proofs.Token.QuotedWord

/-!
# Writing pairs and reading them

A pair is written as its key, an `=`, and its value between quotes; an empty value may be left out.
The key stands between quotes as well, or as it is if it is made of the characters of names. A line
has one pair after the other, with blanks between them. These are the relations `Pair.SpellsKey`,
`Pair.Spells` and `Pair.SpellsLine`, and reading such a line gives the pairs again, whatever the
keys and values contain (`Pair.parse_of_spellsLine`).

Reading goes from the right end of the line and knows an `=` by its content only, so a value that is
an `=`, or a run of empty values, might shift the groups of everything on their left. They do not:
the last two tokens of a pair tell where it begins. If the value is empty they are the key, which
must not be an `=` then, and an `=`; otherwise there is an `=` in front of the last one. So the
group at the right end is the last pair, whatever stands before it (`Pair.scan_parts_append`), and
the groups of the line are found one by one (`Pair.scan_flatMap_parts`).

That the tokens of the line are those of the pairs is shown from the left, along the line, with
`Scanner.Between`.
-/

namespace PocketShell

theorem Text.isBlank_eq_false {c : Char} (h_low : 0x20 < c.toNat) (h_high : c.toNat < 0x85) :
    isBlank c = false := by
  simp [isBlank, inRanges, blankRanges]
  omega

/-- The characters of names have no meaning of their own in a line. -/
theorem Environment.keeps_of_isNameChar {c : Char} (h : isNameChar c = true) :
    Scanner.Mode.plain.Keeps ['='] c := by
  -- letters and digits are ranges of their own, between the blanks
  have h_range : 0x20 < c.toNat ∧ c.toNat < 0x85 := by
    delta isNameChar Char.isAlphanum Char.isAlpha Char.isUpper Char.isLower Char.isDigit at h
    simp only [Bool.or_eq_true, Bool.and_eq_true, decide_eq_true_eq, ge_iff_le,
      UInt32.le_iff_toNat_le] at h
    change (((65 ≤ c.toNat ∧ c.toNat ≤ 90 ∨ 97 ≤ c.toNat ∧ c.toNat ≤ 122) ∨
      48 ≤ c.toNat ∧ c.toNat ≤ 57) ∨ c = '_') ∨ c = '-' at h
    rcases h with ((h | h) | rfl) | rfl
    · omega
    · omega
    · decide
    · decide
  have h_ne : ∀ special, isNameChar special = false → c ≠ special := by
    rintro special h_special rfl
    rw [h_special] at h
    cases h
  have h_equals : c ∉ ['='] := by
    rw [List.mem_singleton]
    exact h_ne '=' (by decide)
  exact ⟨Text.isBlank_eq_false h_range.1 h_range.2, h_ne '"' (by decide), h_ne '\\' (by decide),
    h_equals⟩

/-- Two quotes with nothing between them end what is pending and are no token. -/
theorem Scanner.Between.append_empty_span {scanner : Scanner} {delimiters : List Char}
    {tokens : List Token} (h : scanner.Between delimiters tokens) :
    (scanner.append (Token.quote "")).Between delimiters tokens := by
  let inside : Scanner :=
    { scanner.flush with mode := .quoted, consumed := scanner.consumed + '"'.utf8Size }
  let after : Scanner := { inside.flush with consumed := inside.consumed + '"'.utf8Size }
  have h_open : scanner.step '"' = inside := by
    rw [step_of_room h.room, take_opening h.not_escaped h.outside]
  have h_close : inside.step '"' = after := by
    have h_escaped : inside.escaped = false := escaped_flush scanner
    have h_room : inside.full = false := h.room_flush
    rw [step_of_room h_room, take_closing h_escaped rfl]
  have h_read : scanner.append (Token.quote "") = after := by
    rw [append_eq_foldl, Token.toList_quote, List.foldl_cons, h_open]
    exact h_close
  have h_emitted : after.flush.emitted = scanner.flush.emitted :=
    calc after.flush.emitted
        = inside.flush.emitted := emitted_flush_of_empty (pending_flush inside)
      _ = scanner.flush.emitted := emitted_flush_of_empty (pending_flush scanner)
  rw [h_read]
  exact {
    unlimited := by simp [after, inside, h.unlimited]
    delimiters_eq := by simp [after, inside, h.delimiters_eq]
    not_escaped := by simp [after]
    outside := by simp [after]
    emitted_flush := by rw [h_emitted, h.emitted_flush]
    pending := .inl (pending_flush inside) }

namespace Pair

/-! ### Groups from the right end -/

/-- The contents of the tokens of a pair. An empty value has no token. -/
def parts (pair : Pair) : List String :=
  if pair.value = "" then [pair.key, "="] else [pair.key, "=", pair.value]

/-- **Pairs that can be read.** The key is not empty, and if the value is, the key is not the `=`
that a group of two tokens ends with. -/
def Legible (pair : Pair) : Prop :=
  pair.key ≠ "" ∧ (pair.value = "" → pair.key ≠ "=")

instance (pair : Pair) : Decidable pair.Legible :=
  inferInstanceAs (Decidable (_ ∧ (_ → _)))

theorem ofParts_equals {key : String} (h : key ≠ "") (value : String) :
    ofParts key "=" value = .ok ⟨key, value⟩ := by
  simp [ofParts, h]

/-- **The group at the right end is the last pair,** whatever stands before it. -/
theorem scan_parts_append {pair : Pair} (h : pair.Legible) (rest : List String) :
    scan (pair.parts.reverse ++ rest) = .ok pair :: scan rest := by
  obtain ⟨key, value⟩ := pair
  obtain ⟨h_some, h_equals⟩ := h
  dsimp only at h_some h_equals
  by_cases h_value : value = ""
  · -- a group of two: behind its key, the `=` is the last token
    subst h_value
    have h_key : key ≠ "=" := h_equals rfl
    have h_group := ofParts_equals h_some ""
    cases rest with
    | nil => simp [parts, scan, h_key, h_group]
    | cons first rest => simp [parts, scan, h_key, h_group]
  · -- a group of three: there is an `=` before the last token, so it does not matter what that is
    have h_group := ofParts_equals h_some value
    simp [parts, h_value, scan, h_group]

/-- **The groups of the tokens of pairs** are the pairs. -/
theorem scan_flatMap_parts {pairs : List Pair} (h : ∀ pair ∈ pairs, pair.Legible) :
    scan (pairs.flatMap parts).reverse = (pairs.map .ok).reverse := by
  -- from the last pair on, since that is where reading begins
  induction pairs using List.reverseRecOn with
  | nil => rfl
  | append_singleton pairs last ih =>
    have h_last : last.Legible := h last (by simp)
    have h_rest : ∀ pair ∈ pairs, pair.Legible := fun pair h_mem => h pair (by simp [h_mem])
    calc scan ((pairs ++ [last]).flatMap parts).reverse
        = scan (last.parts.reverse ++ (pairs.flatMap parts).reverse) := by simp
      _ = .ok last :: scan (pairs.flatMap parts).reverse := scan_parts_append h_last _
      _ = .ok last :: (pairs.map .ok).reverse := by rw [ih h_rest]
      _ = ((pairs ++ [last]).map .ok).reverse := by simp

/-- A line whose tokens are those of some pairs is read as the pairs. -/
theorem parse_of_contents {line : String} {pairs : List Pair} (h_some : pairs ≠ [])
    (h : ∀ pair ∈ pairs, pair.Legible) (h_contents : contents line = pairs.flatMap parts) :
    parse line = pairs.map .ok := by
  -- the first pair alone has two tokens, so the line is not too short
  obtain ⟨first, second, rest, h_texts⟩ :
      ∃ first second rest, pairs.flatMap parts = first :: second :: rest := by
    obtain ⟨pair, pairs, rfl⟩ := List.exists_cons_of_ne_nil h_some
    rw [List.flatMap_cons, parts]
    split
    · exact ⟨_, _, _, rfl⟩
    · exact ⟨_, _, _, rfl⟩
  have h_scan := scan_flatMap_parts h
  rw [h_texts] at h_contents h_scan
  unfold parse
  rw [h_contents]
  simp only [h_scan, List.reverse_reverse]

/-! ### Spelled pairs -/

/-- **Spelling a key:** between quotes, or as it is if it is made of the characters of names. -/
inductive SpellsKey (key : String) : String → Prop where
  | quoted : SpellsKey key (Token.quote key)
  | name : (∀ c ∈ key.toList, Environment.isNameChar c = true) → SpellsKey key key

/-- **Spelling a pair.** -/
inductive Spells : Pair → String → Prop where
  | value {key value text : String} :
      SpellsKey key text → Spells ⟨key, value⟩ (text ++ "=" ++ Token.quote value)
  /-- An empty value may be left out. -/
  | noValue {key text : String} : SpellsKey key text → Spells ⟨key, ""⟩ (text ++ "=")

/-- **Spelling pairs in a line,** with blanks between them. -/
inductive SpellsLine : List Pair → String → Prop where
  | last {pair : Pair} {text : String} : Spells pair text → SpellsLine [pair] text
  | cons {pair : Pair} {pairs : List Pair} {text blanks line : String} :
      Spells pair text → blanks ≠ "" → (∀ c ∈ blanks.toList, Text.isBlank c = true) →
      SpellsLine pairs line → SpellsLine (pair :: pairs) (text ++ blanks ++ line)

theorem SpellsLine.ne_nil {pairs : List Pair} {line : String} (h : SpellsLine pairs line) :
    pairs ≠ [] := by
  cases h with
  | last _ => exact List.cons_ne_nil _ _
  | cons _ _ _ _ => exact List.cons_ne_nil _ _

/-! ### The tokens of spelled pairs -/

/-- What counts of some tokens: the contents of those that are not blank. -/
def shown (tokens : List Token) : List String :=
  (tokens.filter fun token => !token.isBlank).map Token.content

theorem shown_append (front back : List Token) :
    shown (front ++ back) = shown front ++ shown back := by
  simp [shown]

section Reading

variable {scanner : Scanner} {tokens : List Token}

/-- A spelled key is one token, behind any other that is no plain text. -/
theorem exists_between_key (h : scanner.Between ['='] tokens)
    (h_last : ∀ last ∈ tokens.getLast?, last.kind ≠ .text) {key text : String} (h_key : key ≠ "")
    (h_spells : SpellsKey key text) :
    ∃ token, (scanner.append text).Between ['='] (tokens ++ [token]) ∧ shown [token] = [key] := by
  cases h_spells with
  | quoted =>
    let token : Token := ⟨.doubleQuoted, key⟩
    have h_read : token.Readable ['='] := ⟨h_key, trivial⟩
    have h_apart : ∀ last ∈ tokens.getLast?, last.Apart token := by
      rintro last - ⟨h_kind, h_text | h_blank⟩
      · exact nomatch h_kind.symm.trans h_text
      · exact nomatch h_kind.symm.trans h_blank
    rw [Token.quote_eq_spelling]
    exact ⟨token, h.append_spelling h_read h_apart, rfl⟩
  | name h_name =>
    let token : Token := ⟨.text, key⟩
    have h_read : token.Readable ['='] :=
      ⟨h_key, fun c h_mem => Environment.keeps_of_isNameChar (h_name c h_mem)⟩
    have h_apart : ∀ last ∈ tokens.getLast?, last.Apart token :=
      fun last h_mem h_same => h_last last h_mem h_same.1
    exact ⟨token, h.append_spelling h_read h_apart, rfl⟩

/-- The `=` is a token of its own behind any other. -/
theorem between_equals (h : scanner.Between ['='] tokens) :
    (scanner.append "=").Between ['='] (tokens ++ [⟨.delimiter, "="⟩]) := by
  have h_read : Token.Readable ['='] ⟨.delimiter, "="⟩ := by decide
  refine h.append_spelling h_read ?_
  rintro last - ⟨h_kind, h_text | h_blank⟩
  · exact nomatch h_kind.symm.trans h_text
  · exact nomatch h_kind.symm.trans h_blank

/-- **A spelled pair** is read as its parts, and what comes next is not joined to it. -/
theorem exists_between_pair (h : scanner.Between ['='] tokens)
    (h_last : ∀ last ∈ tokens.getLast?, last.kind ≠ .text) {pair : Pair} {text : String}
    (h_key : pair.key ≠ "") (h_spells : Spells pair text) :
    ∃ more, (scanner.append text).Between ['='] (tokens ++ more) ∧ shown more = pair.parts ∧
      ∀ last ∈ (tokens ++ more).getLast?, last.kind = .delimiter ∨ last.kind = .doubleQuoted := by
  -- the key and the `=` are the same in all spellings
  have h_front : ∀ {key keyText : String}, key ≠ "" → SpellsKey key keyText →
      ∃ token, (scanner.append (keyText ++ "=")).Between ['=']
          (tokens ++ [token, ⟨.delimiter, "="⟩]) ∧
        shown [token, ⟨.delimiter, "="⟩] = [key, "="] := by
    intro key keyText h_some h_text
    obtain ⟨token, h_token, h_shown⟩ := exists_between_key h h_last h_some h_text
    have h_equals := between_equals h_token
    rw [← Scanner.append_append, List.append_assoc] at h_equals
    refine ⟨token, h_equals, ?_⟩
    rw [← List.singleton_append, shown_append, h_shown]
    rfl
  cases h_spells with
  | noValue h_text =>
    obtain ⟨token, h_read, h_shown⟩ := h_front h_key h_text
    exact ⟨_, h_read, h_shown, by simp⟩
  | @value key value keyText h_text =>
    obtain ⟨token, h_read, h_shown⟩ := h_front h_key h_text
    rw [Scanner.append_append]
    by_cases h_value : value = ""
    · subst h_value
      exact ⟨_, h_read.append_empty_span, h_shown, by simp⟩
    · let last : Token := ⟨.doubleQuoted, value⟩
      have h_readable : last.Readable ['='] := ⟨h_value, trivial⟩
      have h_more := h_read.append_spelling h_readable (by simp [Token.Apart])
      rw [← Token.quote_eq_spelling, List.append_assoc] at h_more
      refine ⟨_, h_more, ?_, by simp [last]⟩
      rw [shown_append, h_shown, parts, if_neg h_value]
      rfl

/-- **A line of spelled pairs** is read as their parts, one pair after the other. -/
theorem exists_between_line (h : scanner.Between ['='] tokens)
    (h_last : ∀ last ∈ tokens.getLast?, last.kind ≠ .text) {pairs : List Pair} {line : String}
    (h_keys : ∀ pair ∈ pairs, pair.key ≠ "") (h_line : SpellsLine pairs line) :
    ∃ more, (scanner.append line).Between ['='] (tokens ++ more) ∧
      shown more = pairs.flatMap parts := by
  induction h_line generalizing scanner tokens with
  | last h_spells =>
    obtain ⟨more, h_read, h_shown, -⟩ :=
      exists_between_pair h h_last (h_keys _ List.mem_cons_self) h_spells
    exact ⟨more, h_read, by simpa using h_shown⟩
  | @cons pair pairs text blanks line h_spells h_some h_blanks _ ih =>
    obtain ⟨first, h_first, h_shown, h_end⟩ :=
      exists_between_pair h h_last (h_keys _ List.mem_cons_self) h_spells
    -- the blanks are a token that does not count
    let gap : Token := ⟨.blank, blanks⟩
    have h_apart : ∀ last ∈ (tokens ++ first).getLast?, last.Apart gap := by
      rintro last h_mem ⟨h_kind, -⟩
      rcases h_end last h_mem with h_delimiter | h_quoted
      · exact nomatch h_delimiter.symm.trans h_kind
      · exact nomatch h_quoted.symm.trans h_kind
    have h_gap : ((scanner.append text).append blanks).Between ['='] (tokens ++ first ++ [gap]) :=
      h_first.append_spelling ⟨h_some, h_blanks⟩ h_apart
    obtain ⟨rest, h_rest, h_shown_rest⟩ :=
      ih h_gap (by simp [gap]) fun pair h_mem => h_keys pair (List.mem_cons_of_mem _ h_mem)
    refine ⟨first ++ gap :: rest, ?_, ?_⟩
    · rw [Scanner.append_append, Scanner.append_append]
      simpa using h_rest
    · rw [List.flatMap_cons, shown_append, h_shown, ← h_shown_rest]
      rfl

end Reading

theorem contents_of_spellsLine {pairs : List Pair} {line : String}
    (h_keys : ∀ pair ∈ pairs, pair.key ≠ "") (h_line : SpellsLine pairs line) :
    contents line = pairs.flatMap parts := by
  obtain ⟨tokens, h_read, h_shown⟩ :=
    exists_between_line (.new ['=']) (fun _ h_mem => nomatch h_mem) h_keys h_line
  rw [← h_shown, ← List.nil_append tokens, ← h_read.finish_eq]
  rfl

/-- **Reading undoes writing.** A line that spells some pairs is read as exactly these pairs, in
their order and without an error. A key must not be empty, nor an `=` in front of an empty value. -/
theorem parse_of_spellsLine {pairs : List Pair} {line : String}
    (h_legible : ∀ pair ∈ pairs, pair.Legible) (h_line : SpellsLine pairs line) :
    parse line = pairs.map .ok :=
  parse_of_contents h_line.ne_nil h_legible
    (contents_of_spellsLine (fun pair h_mem => (h_legible pair h_mem).1) h_line)

/-- Keys with and without quotes, empty values that are left out and that are written as two quotes,
and a value that is an `=` between two of them. -/
theorem parse_of_spellsLine_equals :
    let pairs : List Pair := [⟨"a", ""⟩, ⟨"say \"=\"", "="⟩, ⟨"b-1", ""⟩, ⟨"=", "x = \\y"⟩]
    let line := "a= \"say \\\"=\\\"\"=\"=\" \tb-1=\"\"\n\"=\"=\"x = \\\\y\""
    (∀ pair ∈ pairs, pair.Legible) ∧ SpellsLine pairs line ∧ parse line = pairs.map .ok := by
  intro pairs line
  have h_legible : ∀ pair ∈ pairs, pair.Legible := by decide
  have h_a : SpellsKey "a" "a" := .name (List.forall_iff_forall_mem.1 (by decide))
  have h_b : SpellsKey "b-1" "b-1" := .name (List.forall_iff_forall_mem.1 (by decide))
  have h_space : ∀ c ∈ " ".toList, Text.isBlank c = true := List.forall_iff_forall_mem.1 (by decide)
  have h_tab : ∀ c ∈ " \t".toList, Text.isBlank c = true := List.forall_iff_forall_mem.1 (by decide)
  have h_feed : ∀ c ∈ "\n".toList, Text.isBlank c = true := List.forall_iff_forall_mem.1 (by decide)
  have h_line : SpellsLine pairs line :=
    .cons (.noValue h_a) (by decide) h_space
      (.cons (.value .quoted) (by decide) h_tab
        (.cons (.value h_b) (by decide) h_feed (.last (.value .quoted))))
  exact ⟨h_legible, h_line, parse_of_spellsLine h_legible h_line⟩

end Pair

end PocketShell
