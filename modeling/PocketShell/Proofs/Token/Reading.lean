import PocketShell.Token.Scanner

/-!
# What a scanner does with a character

`Scanner.take` decides by cases. This module says once what the cases are and what each of them
does; all that is proved about scanners rests on it.

* `Mode.Keeps` — the characters that are content in a mode: what a scanner in that mode puts behind
  the pending ones;
* `Scanner.Takes`, `Scanner.takes` — the eight things that can happen to a character, and that one
  of them does;
* `Scanner.take_of_escaped`, `Scanner.take_backslash`, `Scanner.take_opening`,
  `Scanner.take_closing`, `Scanner.take_blank`, `Scanner.take_of_keeps`, `Scanner.take_word`,
  `Scanner.take_delimiter` — the same as equations.

Two scanners that differ only in what they have emitted, in the limit or in the count of bytes take
a character in the same way (`Scanner.Parallel`). So no character depends on the count or changes it
(`Scanner.take_recount`): reading a text is taking a step for each of its characters
(`Scanner.append_eq_foldl`), although its bytes are counted all at once, and a text may be read in
chunks (`Scanner.append_append`).

From the cases follows what a scanner does with the pieces of a text: with a run of content
(`Scanner.foldl_step_of_keeps`), with a word or a run of blanks from its first character on
(`Scanner.foldl_step_run`), with content that is spelled with backslashes (`Mode.Spells`,
`Scanner.foldl_step_of_spells`) and with a whole span between quotes (`Scanner.foldl_step_quotes`).
Each piece leaves the scanner in a state that is written out, the bytes that it has counted
included.
-/

namespace PocketShell

theorem Text.ne_special_of_isBlank {c : Char} (h : isBlank c = true) : c ≠ '\\' ∧ c ≠ '"' := by
  constructor
  · rintro rfl
    exact absurd h (by decide)
  · rintro rfl
    exact absurd h (by decide)

/-- **The spelling of a quoted token** is its content, escaped and between quotes. -/
theorem Token.spelling_doubleQuoted (content : String) :
    spelling ⟨.doubleQuoted, content⟩ = "\"" ++ Text.escape ['"', '\\'] content ++ "\"" := by
  apply String.toList_inj.1
  simp [spelling, Kind.quote?]

namespace Scanner

/-- **Content.** The characters, outside an escape, that a scanner in this mode puts behind the
pending ones. -/
def Mode.Keeps (delimiters : List Char) : Mode → Char → Prop
  | .plain, c => Text.isBlank c = false ∧ c ≠ '"' ∧ c ≠ '\\' ∧ c ∉ delimiters
  | .blank, c => Text.isBlank c = true
  | .quoted, c => c ≠ '"' ∧ c ≠ '\\'

instance (delimiters : List Char) (mode : Mode) (c : Char) : Decidable (mode.Keeps delimiters c) :=
  match mode with
  | .plain => inferInstanceAs
      (Decidable (Text.isBlank c = false ∧ c ≠ '"' ∧ c ≠ '\\' ∧ c ∉ delimiters))
  | .blank => inferInstanceAs (Decidable (Text.isBlank c = true))
  | .quoted => inferInstanceAs (Decidable (c ≠ '"' ∧ c ≠ '\\'))

theorem Mode.Keeps.ne_special {delimiters : List Char} {mode : Mode} {c : Char}
    (h : mode.Keeps delimiters c) : c ≠ '\\' ∧ c ≠ '"' := by
  cases mode with
  | plain => exact ⟨h.2.2.1, h.2.1⟩
  | blank => exact Text.ne_special_of_isBlank h
  | quoted => exact ⟨h.2, h.1⟩

/-- Outside quotes a scanner reads plain text or a run of blanks. -/
theorem Mode.plain_or_blank {mode : Mode} (h : mode ≠ .quoted) : mode = .plain ∨ mode = .blank := by
  cases mode with
  | plain => exact .inl rfl
  | blank => exact .inr rfl
  | quoted => exact absurd rfl h

variable (scanner : Scanner)

/-! ### Emitting and flushing -/

/-- Emitting changes nothing but what is emitted. -/
theorem emit_eq (kind : Token.Kind) (content : String) :
    scanner.emit kind content =
      { scanner with emitted := (scanner.emit kind content).emitted } := by
  unfold emit
  split <;> rfl

/-- Ending a token leaves nothing pending. -/
theorem flush_eq :
    scanner.flush =
      { scanner with
        emitted := scanner.flush.emitted, pending := "", mode := .plain, escaped := false } := by
  unfold flush
  dsimp only
  split
  · rfl
  · rw [emit_eq]

@[simp] theorem limit_emit (kind : Token.Kind) (content : String) :
    (scanner.emit kind content).limit = scanner.limit := by
  rw [emit_eq]

@[simp] theorem delimiters_emit (kind : Token.Kind) (content : String) :
    (scanner.emit kind content).delimiters = scanner.delimiters := by
  rw [emit_eq]

@[simp] theorem pending_emit (kind : Token.Kind) (content : String) :
    (scanner.emit kind content).pending = scanner.pending := by
  rw [emit_eq]

@[simp] theorem mode_emit (kind : Token.Kind) (content : String) :
    (scanner.emit kind content).mode = scanner.mode := by
  rw [emit_eq]

@[simp] theorem escaped_emit (kind : Token.Kind) (content : String) :
    (scanner.emit kind content).escaped = scanner.escaped := by
  rw [emit_eq]

@[simp] theorem limit_flush : scanner.flush.limit = scanner.limit := by
  rw [flush_eq]

@[simp] theorem delimiters_flush : scanner.flush.delimiters = scanner.delimiters := by
  rw [flush_eq]

@[simp] theorem pending_flush : scanner.flush.pending = "" := by
  rw [flush_eq]

@[simp] theorem mode_flush : scanner.flush.mode = .plain := by
  rw [flush_eq]

@[simp] theorem escaped_flush : scanner.flush.escaped = false := by
  rw [flush_eq]

@[simp] theorem consumed_flush : scanner.flush.consumed = scanner.consumed := by
  rw [flush_eq]

variable {scanner}

/-- With nothing pending, ending a token emits none. -/
theorem emitted_flush_of_empty (h : scanner.pending = "") :
    scanner.flush.emitted = scanner.emitted := by
  simp [flush, h]

/-- Ending a token emits what is pending, if there is room. -/
theorem emitted_flush_of_pending (h : scanner.full = false) (h_pending : scanner.pending ≠ "") :
    scanner.flush.emitted = scanner.emitted.push ⟨scanner.mode.kind, scanner.pending⟩ := by
  have h_some : scanner.pending.isEmpty = false := by simpa using h_pending
  unfold flush
  simp [h_some, emit, h]

theorem emitted_flush_of_full (h : scanner.full = true) :
    scanner.flush.emitted = scanner.emitted := by
  unfold flush
  dsimp only
  split
  · rfl
  · rw [emit, if_pos h]

theorem emitted_emit (h : scanner.full = false) (kind : Token.Kind) (content : String) :
    (scanner.emit kind content).emitted = scanner.emitted.push ⟨kind, content⟩ := by
  simp [emit, h]

/-- A scanner in plain text with nothing pending has no token to end. -/
theorem flush_of_empty (h_pending : scanner.pending = "") (h_plain : scanner.mode = .plain)
    (h_escaped : scanner.escaped = false) : scanner.flush = scanner := by
  rw [flush_eq, emitted_flush_of_empty h_pending, ← h_pending, ← h_plain, ← h_escaped]

@[simp] theorem flush_flush : scanner.flush.flush = scanner.flush :=
  flush_of_empty (pending_flush scanner) (mode_flush scanner) (escaped_flush scanner)

theorem endBlanks_of_blank (h : scanner.mode = .blank) : scanner.endBlanks = scanner.flush := by
  rw [endBlanks, if_pos h]

theorem endBlanks_of_ne_blank (h : scanner.mode ≠ .blank) : scanner.endBlanks = scanner := by
  rw [endBlanks, if_neg h]

theorem full_of_unlimited (h : scanner.limit = none) : scanner.full = false := by
  simp [full, h]

/-! ### Taking a character -/

section Take

variable {c : Char}

theorem take_of_escaped (h : scanner.escaped = true) :
    scanner.take c = { scanner.hold c with escaped := false } := by
  rw [take, if_pos h]

theorem take_backslash (h : scanner.escaped = false) :
    scanner.take '\\' = { scanner.endBlanks with escaped := true } := by
  simp [take, h]

theorem take_opening (h : scanner.escaped = false) (h_mode : scanner.mode ≠ .quoted) :
    scanner.take '"' = { scanner.flush with mode := .quoted } := by
  simp [take, h, h_mode]

theorem take_closing (h : scanner.escaped = false) (h_mode : scanner.mode = .quoted) :
    scanner.take '"' = scanner.flush := by
  rw [flush_eq]
  simp [take, h, h_mode]

/-- A blank behind plain text begins a run. -/
theorem take_blank (h : scanner.escaped = false) (h_plain : scanner.mode = .plain)
    (h_blank : Text.isBlank c = true) :
    scanner.take c = { scanner.flush with mode := .blank }.hold c := by
  obtain ⟨h_backslash, h_quote⟩ := Text.ne_special_of_isBlank h_blank
  simp [take, h, h_backslash, h_quote, h_blank, h_plain]

theorem take_of_keeps (h : scanner.escaped = false)
    (h_keeps : scanner.mode.Keeps scanner.delimiters c) : scanner.take c = scanner.hold c := by
  obtain ⟨h_backslash, h_quote⟩ := h_keeps.ne_special
  cases h_mode : scanner.mode with
  | plain =>
    obtain ⟨h_blank, -, -, h_delimiter⟩ : Mode.Keeps scanner.delimiters .plain c := h_mode ▸ h_keeps
    have h_end : scanner.endBlanks = scanner := endBlanks_of_ne_blank (by rw [h_mode]; decide)
    simp [take, h, h_backslash, h_quote, h_blank, h_end, takeOrdinary, h_delimiter]
  | blank =>
    have h_blank : Text.isBlank c = true := by
      rw [h_mode] at h_keeps
      exact h_keeps
    simp [take, h, h_backslash, h_quote, h_blank, h_mode]
  | quoted =>
    have h_end : scanner.endBlanks = scanner := endBlanks_of_ne_blank (by rw [h_mode]; decide)
    simp [take, h, h_backslash, h_quote, h_mode, h_end, takeOrdinary]

/-- A character of plain text ends a run of blanks. -/
theorem take_word (h : scanner.escaped = false) (h_mode : scanner.mode = .blank)
    (h_keeps : Mode.plain.Keeps scanner.delimiters c) :
    scanner.take c = scanner.flush.hold c := by
  obtain ⟨h_blank, h_quote, h_backslash, h_delimiter⟩ := h_keeps
  simp [take, h, h_backslash, h_quote, h_blank, endBlanks_of_blank h_mode, takeOrdinary,
    h_delimiter]

theorem take_delimiter (h : scanner.escaped = false) (h_mode : scanner.mode ≠ .quoted)
    (h_mem : c ∈ scanner.delimiters) (h_blank : Text.isBlank c = false) (h_quote : c ≠ '"')
    (h_backslash : c ≠ '\\') :
    scanner.take c = scanner.flush.emit .delimiter (String.singleton c) := by
  by_cases h_run : scanner.mode = .blank
  · simp [take, h, h_backslash, h_quote, h_blank, endBlanks_of_blank h_run, takeOrdinary, h_mem]
  · simp [take, h, h_backslash, h_quote, h_blank, endBlanks_of_ne_blank h_run, takeOrdinary, h_mem,
      h_mode]

end Take

/-- **What can happen to a character.** -/
inductive Takes (scanner : Scanner) (c : Char) : Scanner → Prop where
  /-- The character behind a backslash is content, whatever it is. -/
  | literal : scanner.escaped = true → Takes scanner c { scanner.hold c with escaped := false }
  | backslash : scanner.escaped = false → c = '\\' →
      Takes scanner c { scanner.endBlanks with escaped := true }
  | opening : scanner.escaped = false → c = '"' → scanner.mode ≠ .quoted →
      Takes scanner c { scanner.flush with mode := .quoted }
  | closing : scanner.escaped = false → c = '"' → scanner.mode = .quoted →
      Takes scanner c scanner.flush
  /-- A blank begins a run. -/
  | blank : scanner.escaped = false → scanner.mode = .plain → Text.isBlank c = true →
      Takes scanner c ({ scanner.flush with mode := .blank }.hold c)
  | content : scanner.escaped = false → scanner.mode.Keeps scanner.delimiters c →
      Takes scanner c (scanner.hold c)
  /-- Plain text ends a run of blanks. -/
  | word : scanner.escaped = false → scanner.mode = .blank →
      Mode.plain.Keeps scanner.delimiters c → Takes scanner c (scanner.flush.hold c)
  | delimiter : scanner.escaped = false → scanner.mode ≠ .quoted → c ∈ scanner.delimiters →
      Text.isBlank c = false → c ≠ '"' → c ≠ '\\' →
      Takes scanner c (scanner.flush.emit .delimiter (String.singleton c))

/-- One of these things happens to every character. -/
theorem takes (scanner : Scanner) (c : Char) : scanner.Takes c (scanner.take c) := by
  cases h_escaped : scanner.escaped with
  | true => exact take_of_escaped h_escaped ▸ .literal h_escaped
  | false =>
    by_cases h_backslash : c = '\\'
    · rw [h_backslash, take_backslash h_escaped]
      exact .backslash h_escaped rfl
    by_cases h_quote : c = '"'
    · rw [h_quote]
      by_cases h_mode : scanner.mode = .quoted
      · rw [take_closing h_escaped h_mode]
        exact .closing h_escaped rfl h_mode
      · rw [take_opening h_escaped h_mode]
        exact .opening h_escaped rfl h_mode
    have h_content : scanner.mode.Keeps scanner.delimiters c →
        scanner.Takes c (scanner.take c) := by
      intro h_keeps
      rw [take_of_keeps h_escaped h_keeps]
      exact .content h_escaped h_keeps
    -- inside quotes everything else is content; outside it depends on blanks and delimiters
    by_cases h_mode : scanner.mode = .quoted
    · exact h_content (h_mode ▸ ⟨h_quote, h_backslash⟩)
    have h_outside := Mode.plain_or_blank h_mode
    cases h_blank : Text.isBlank c with
    | true =>
      rcases h_outside with h_plain | h_run
      · rw [take_blank h_escaped h_plain h_blank]
        exact .blank h_escaped h_plain h_blank
      · exact h_content (h_run ▸ h_blank)
    | false =>
      by_cases h_mem : c ∈ scanner.delimiters
      · rw [take_delimiter h_escaped h_mode h_mem h_blank h_quote h_backslash]
        exact .delimiter h_escaped h_mode h_mem h_blank h_quote h_backslash
      · have h_keeps : Mode.plain.Keeps scanner.delimiters c :=
          ⟨h_blank, h_quote, h_backslash, h_mem⟩
        rcases h_outside with h_plain | h_run
        · exact h_content (h_plain ▸ h_keeps)
        · rw [take_word h_escaped h_run h_keeps]
          exact .word h_escaped h_run h_keeps

/-- A character changes neither the delimiters nor the limit. -/
theorem Takes.frame {c : Char} {after : Scanner} (h : scanner.Takes c after) :
    after.delimiters = scanner.delimiters ∧ after.limit = scanner.limit := by
  have h_end : scanner.endBlanks.delimiters = scanner.delimiters ∧
      scanner.endBlanks.limit = scanner.limit := by
    by_cases h : scanner.mode = .blank
    · simp [endBlanks_of_blank h]
    · simp [endBlanks_of_ne_blank h]
  cases h with
  | literal _ => exact ⟨rfl, rfl⟩
  | backslash _ _ => exact h_end
  | opening _ _ _ => exact ⟨delimiters_flush scanner, limit_flush scanner⟩
  | closing _ _ _ => exact ⟨delimiters_flush scanner, limit_flush scanner⟩
  | blank _ _ _ => exact ⟨delimiters_flush scanner, limit_flush scanner⟩
  | content _ _ => exact ⟨rfl, rfl⟩
  | word _ _ _ => exact ⟨delimiters_flush scanner, limit_flush scanner⟩
  | delimiter _ _ _ _ _ _ => simp

/-! ### Parallel scanners

What a character does depends on the delimiters, on what is pending, on the mode and on the escape;
what has been emitted, the limit and the count matter at most to what is emitted next. So scanners
that differ in these only go on in parallel, if they do so whenever they emit a token. -/

/-- **Parallel scanners.** A relation between scanners that would read a text in the same way; it is
kept when both write the same, and when both emit the same token. -/
structure Parallel (R : Scanner → Scanner → Prop) : Prop where
  agrees {a b : Scanner} : R a b →
    b.delimiters = a.delimiters ∧ b.pending = a.pending ∧ b.mode = a.mode ∧ b.escaped = a.escaped
  pending {a b : Scanner} : R a b → ∀ pending, R { a with pending } { b with pending }
  mode {a b : Scanner} : R a b → ∀ mode, R { a with mode } { b with mode }
  escaped {a b : Scanner} : R a b → ∀ escaped, R { a with escaped } { b with escaped }
  emit {a b : Scanner} : R a b → ∀ kind content, R (a.emit kind content) (b.emit kind content)

namespace Parallel

variable {R : Scanner → Scanner → Prop} {a b : Scanner}

theorem hold (h : Parallel R) (h_ab : R a b) (c : Char) : R (a.hold c) (b.hold c) := by
  obtain ⟨-, h_pending, -, -⟩ := h.agrees h_ab
  have h_both := h.pending h_ab (a.pending.push c)
  rw [Scanner.hold, Scanner.hold, h_pending]
  exact h_both

theorem flush (h : Parallel R) (h_ab : R a b) : R a.flush b.flush := by
  obtain ⟨-, h_pending, h_mode, -⟩ := h.agrees h_ab
  -- both emit what is pending or both do not, and then both clear the rest
  have h_clear {x y : Scanner} (h_xy : R x y) :
      R { x with pending := "", mode := .plain, escaped := false }
        { y with pending := "", mode := .plain, escaped := false } :=
    h.escaped (h.mode (h.pending h_xy "") .plain) false
  unfold Scanner.flush
  dsimp only
  rw [h_pending, h_mode]
  split
  · exact h_clear h_ab
  · exact h_clear (h.emit h_ab _ _)

theorem endBlanks (h : Parallel R) (h_ab : R a b) : R a.endBlanks b.endBlanks := by
  obtain ⟨-, -, h_mode, -⟩ := h.agrees h_ab
  unfold Scanner.endBlanks
  rw [h_mode]
  split
  · exact h.flush h_ab
  · exact h_ab

theorem takeOrdinary (h : Parallel R) (h_ab : R a b) (c : Char) :
    R (a.takeOrdinary c) (b.takeOrdinary c) := by
  obtain ⟨h_delimiters, -, h_mode, -⟩ := h.agrees h_ab
  unfold Scanner.takeOrdinary
  rw [h_delimiters, h_mode]
  split
  · exact h.emit (h.flush h_ab) _ _
  · exact h.hold h_ab c

/-- **One character** leaves parallel scanners parallel. -/
theorem take (h : Parallel R) (h_ab : R a b) (c : Char) : R (a.take c) (b.take c) := by
  obtain ⟨-, -, h_mode, h_escaped⟩ := h.agrees h_ab
  unfold Scanner.take
  rw [h_mode, h_escaped]
  split
  · exact h.escaped (h.hold h_ab c) false
  split
  · exact h.escaped (h.endBlanks h_ab) true
  split
  · exact h.mode (h.flush h_ab) _
  split
  · split
    · exact h.hold (h.mode (h.flush h_ab) .blank) c
    · exact h.hold h_ab c
  · exact h.takeOrdinary (h.endBlanks h_ab) c

end Parallel

/-! ### Steps

A text is read in one go: its bytes are counted when the reading ends, however it ends. The same
comes of counting them one character at a time, which is what a step does. -/

/-- The scanner with another count of bytes. -/
def recount (scanner : Scanner) (bytes : Nat) : Scanner :=
  { scanner with consumed := bytes }

@[simp] theorem full_recount (scanner : Scanner) (bytes : Nat) :
    (scanner.recount bytes).full = scanner.full := rfl

@[simp] theorem consumed_recount (scanner : Scanner) (bytes : Nat) :
    (scanner.recount bytes).consumed = bytes := rfl

theorem emit_recount (scanner : Scanner) (bytes : Nat) (kind : Token.Kind) (content : String) :
    (scanner.recount bytes).emit kind content = (scanner.emit kind content).recount bytes := by
  unfold emit
  rw [full_recount]
  split <;> rfl

theorem parallel_recount (bytes : Nat) : Parallel fun a b => b = a.recount bytes where
  agrees h := h ▸ ⟨rfl, rfl, rfl, rfl⟩
  pending h _ := h ▸ rfl
  mode h _ := h ▸ rfl
  escaped h _ := h ▸ rfl
  emit h kind content := by rw [h, emit_recount]

/-- **The count does not matter** to what a character does, and no character changes it. -/
theorem take_recount (scanner : Scanner) (bytes : Nat) (c : Char) :
    (scanner.recount bytes).take c = (scanner.take c).recount bytes :=
  (parallel_recount bytes).take rfl c

/-- **One step.** A full scanner ignores the character; any other takes it and counts its bytes. -/
def step (scanner : Scanner) (c : Char) : Scanner :=
  if scanner.full then scanner
  else
    let consumed := scanner.consumed + c.utf8Size
    { scanner.take c with consumed }

/-- A full scanner takes no more steps. -/
theorem foldl_step_of_full (h : scanner.full = true) (cs : List Char) :
    cs.foldl step scanner = scanner := by
  induction cs with
  | nil => rfl
  | cons c cs ih => rw [List.foldl_cons, step, if_pos h, ih]

theorem read_eq_foldl (scanner : Scanner) (bytes : Nat) (cs : List Char) :
    scanner.read bytes cs = cs.foldl step (scanner.recount (scanner.consumed + bytes)) := by
  induction cs generalizing scanner bytes with
  | nil => rfl
  | cons c cs ih =>
    rw [read]
    by_cases h_full : scanner.full = true
    · -- the rest is not read, and is not counted either
      have h_full' : (scanner.recount (scanner.consumed + bytes)).full = true := h_full
      rw [if_pos h_full, foldl_step_of_full h_full']
      rfl
    · have h_count : (scanner.take c).consumed = scanner.consumed :=
        calc (scanner.take c).consumed
            = ((scanner.recount scanner.consumed).take c).consumed := rfl
          _ = scanner.consumed := by rw [take_recount, consumed_recount]
      have h_step : (scanner.recount (scanner.consumed + bytes)).step c =
          (scanner.take c).recount (scanner.consumed + (bytes + c.utf8Size)) := by
        rw [step, full_recount, if_neg h_full, take_recount, ← Nat.add_assoc]
        rfl
      rw [if_neg h_full, ih, h_count, List.foldl_cons, h_step]

/-- **Reading a text is taking a step for each of its characters.** -/
theorem append_eq_foldl (scanner : Scanner) (text : String) :
    scanner.append text = text.toList.foldl step scanner :=
  read_eq_foldl scanner 0 text.toList

/-- **Reading a text in two chunks** is reading it at once. -/
theorem append_append (scanner : Scanner) (a b : String) :
    scanner.append (a ++ b) = (scanner.append a).append b := by
  simp only [append_eq_foldl, String.toList_append, List.foldl_append]

/-! ### Reading a text -/

/-- A step changes neither the delimiters nor the limit. -/
theorem frame_step (scanner : Scanner) (c : Char) :
    (scanner.step c).delimiters = scanner.delimiters ∧
      (scanner.step c).limit = scanner.limit := by
  unfold step
  split
  · exact ⟨rfl, rfl⟩
  · exact (scanner.takes c).frame

@[simp] theorem limit_step (scanner : Scanner) (c : Char) :
    (scanner.step c).limit = scanner.limit :=
  (frame_step scanner c).2

theorem frame_foldl (scanner : Scanner) (cs : List Char) :
    (cs.foldl step scanner).delimiters = scanner.delimiters ∧
      (cs.foldl step scanner).limit = scanner.limit := by
  induction cs generalizing scanner with
  | nil => exact ⟨rfl, rfl⟩
  | cons c cs ih =>
    obtain ⟨h_delimiters, h_limit⟩ := frame_step scanner c
    rw [List.foldl_cons, (ih (scanner.step c)).1, (ih (scanner.step c)).2]
    exact ⟨h_delimiters, h_limit⟩

@[simp] theorem delimiters_append (scanner : Scanner) (text : String) :
    (scanner.append text).delimiters = scanner.delimiters := by
  rw [append_eq_foldl, (frame_foldl scanner text.toList).1]

@[simp] theorem limit_append (scanner : Scanner) (text : String) :
    (scanner.append text).limit = scanner.limit := by
  rw [append_eq_foldl, (frame_foldl scanner text.toList).2]

/-- **A full scanner reads nothing more.** -/
theorem append_of_full (h : scanner.full = true) (text : String) :
    scanner.append text = scanner := by
  rw [append_eq_foldl, foldl_step_of_full h]

/-- Puts a text behind the pending characters, and counts bytes. -/
def keep (scanner : Scanner) (content : String) (bytes : Nat) : Scanner :=
  { scanner with pending := scanner.pending ++ content, consumed := scanner.consumed + bytes }

@[simp] theorem keep_empty (scanner : Scanner) : scanner.keep "" 0 = scanner := by
  simp [keep]

@[simp] theorem keep_keep (scanner : Scanner) (a b : String) (m n : Nat) :
    (scanner.keep a m).keep b n = scanner.keep (a ++ b) (m + n) := by
  simp [keep, String.append_assoc, Nat.add_assoc]

@[simp] theorem mode_keep (scanner : Scanner) (content : String) (bytes : Nat) :
    (scanner.keep content bytes).mode = scanner.mode := rfl

@[simp] theorem delimiters_keep (scanner : Scanner) (content : String) (bytes : Nat) :
    (scanner.keep content bytes).delimiters = scanner.delimiters := rfl

theorem hold_eq_keep (scanner : Scanner) (c : Char) (bytes : Nat) :
    { scanner.hold c with consumed := scanner.consumed + bytes } =
      scanner.keep (String.singleton c) bytes := by
  simp [hold, keep]

theorem step_of_room (h_room : scanner.full = false) (c : Char) :
    scanner.step c = { scanner.take c with consumed := scanner.consumed + c.utf8Size } := by
  simp [step, h_room]

theorem step_of_keeps {c : Char} (h_room : scanner.full = false)
    (h_escaped : scanner.escaped = false)
    (h_keeps : scanner.mode.Keeps scanner.delimiters c) :
    scanner.step c = scanner.keep (String.singleton c) c.utf8Size := by
  rw [step_of_room h_room, take_of_keeps h_escaped h_keeps, hold_eq_keep]

/-- **A run of content.** Every character of it is put behind the pending ones. -/
theorem foldl_step_of_keeps {cs : List Char} (h_room : scanner.full = false)
    (h_escaped : scanner.escaped = false)
    (h_keeps : ∀ c ∈ cs, scanner.mode.Keeps scanner.delimiters c) :
    cs.foldl step scanner = scanner.keep (String.ofList cs) (String.ofList cs).utf8ByteSize := by
  induction cs generalizing scanner with
  | nil => simp
  | cons c cs ih =>
    rw [List.foldl_cons, step_of_keeps h_room h_escaped (h_keeps c List.mem_cons_self), ih]
    · simp
    -- the scanner is in the same mode as before, and the next character is content too
    · exact h_room
    · exact h_escaped
    · exact fun c h_mem => h_keeps c (List.mem_cons_of_mem _ h_mem)

/-- **A word or a run of blanks,** from its first character on. It is not joined to what is pending,
if nothing is or if that is of the other sort. -/
theorem foldl_step_run {mode : Mode} {cs : List Char} (h_room : scanner.full = false)
    (h_room' : scanner.flush.full = false) (h_escaped : scanner.escaped = false)
    (h_outside : scanner.mode ≠ .quoted) (h_mode : mode ≠ .quoted) (h_some : cs ≠ [])
    (h_apart : scanner.pending = "" ∨ scanner.mode ≠ mode)
    (h_keeps : ∀ c ∈ cs, mode.Keeps scanner.delimiters c) :
    cs.foldl step scanner =
      { scanner.flush with mode }.keep (String.ofList cs) (String.ofList cs).utf8ByteSize := by
  obtain ⟨c, cs, rfl⟩ := List.exists_cons_of_ne_nil h_some
  have h_first := h_keeps c List.mem_cons_self
  -- the first character ends what is pending and begins the run
  have h_take : scanner.take c = { scanner.flush with mode }.hold c := by
    by_cases h_same : scanner.mode = mode
    · have h_empty : scanner.pending = "" := h_apart.resolve_right fun h => h h_same
      rw [take_of_keeps h_escaped (h_same ▸ h_first), flush_eq, emitted_flush_of_empty h_empty,
        ← h_empty, ← h_same, ← h_escaped]
    · rcases Mode.plain_or_blank h_mode with rfl | rfl
      · have h_run := (Mode.plain_or_blank h_outside).resolve_left h_same
        rw [take_word h_escaped h_run h_first, flush_eq]
      · have h_plain := (Mode.plain_or_blank h_outside).resolve_right h_same
        exact take_blank h_escaped h_plain h_first
  have h_step : scanner.step c =
      { scanner.flush with mode }.keep (String.singleton c) c.utf8Size := by
    rw [step_of_room h_room, h_take, ← hold_eq_keep, consumed_flush]
  rw [List.foldl_cons, h_step, foldl_step_of_keeps]
  · simp
  · exact h_room'
  · exact escaped_flush scanner
  · intro c h_mem
    simpa using h_keeps c (List.mem_cons_of_mem _ h_mem)

/-! ### Spelled content

In plain text and inside quotes, what is no content there can be spelled with a backslash in front
of it, and what is content can be spelled so as well. -/

/-- **Spelling.** The first text is read as the second one: content stands for itself, and behind a
backslash, which is not read as anything, any character does. -/
inductive Mode.Spells (delimiters : List Char) (mode : Mode) : List Char → List Char → Prop where
  | nil : Spells delimiters mode [] []
  | content {c : Char} {text read : List Char} : mode.Keeps delimiters c →
      Spells delimiters mode text read → Spells delimiters mode (c :: text) (c :: read)
  | escaped {c : Char} {text read : List Char} :
      Spells delimiters mode text read → Spells delimiters mode ('\\' :: c :: text) (c :: read)

/-- Content spells itself. -/
theorem Mode.spells_self {delimiters : List Char} {mode : Mode} {cs : List Char}
    (h : ∀ c ∈ cs, mode.Keeps delimiters c) : mode.Spells delimiters cs cs := by
  induction cs with
  | nil => exact .nil
  | cons c cs ih =>
    obtain ⟨h_first, h_rest⟩ := List.forall_mem_cons.1 h
    exact .content h_first (ih h_rest)

/-- Inside quotes, the escaped text spells the text. -/
theorem Mode.spells_escape (delimiters : List Char) (content : String) :
    Mode.quoted.Spells delimiters (Text.escape ['"', '\\'] content).toList content.toList := by
  rw [Text.toList_escape]
  induction content.toList with
  | nil => exact .nil
  | cons c cs ih =>
    rw [List.flatMap_cons]
    by_cases h_special : c ∈ ['"', '\\']
    · rw [Text.escapeChar, if_pos h_special]
      exact .escaped ih
    · rw [Text.escapeChar, if_neg h_special]
      have h_keeps : Mode.quoted.Keeps delimiters c := by simpa [Mode.Keeps] using h_special
      exact .content h_keeps ih

/-- A backslash and the character behind it are read as the character. -/
theorem foldl_step_escaped (h_room : scanner.full = false) (h_escaped : scanner.escaped = false)
    (h_mode : scanner.mode ≠ .blank) (c : Char) :
    ['\\', c].foldl step scanner =
      scanner.keep (String.singleton c) (String.ofList ['\\', c]).utf8ByteSize := by
  -- the backslash is no content, and takes away the meaning of the character behind it
  have h_backslash : scanner.step '\\' = { scanner.keep "" 1 with escaped := true } := by
    rw [step_of_room h_room, take_backslash h_escaped, endBlanks_of_ne_blank h_mode]
    simp [keep]
    rfl
  have h_bytes : (String.ofList ['\\', c]).utf8ByteSize = 1 + c.utf8Size := by
    simp
    rfl
  rw [h_bytes, List.foldl_cons, h_backslash, List.foldl_cons, List.foldl_nil,
    step_of_room (by exact h_room), take_of_escaped rfl]
  simp [hold, keep, h_escaped, Nat.add_assoc]

/-- **Spelled content** is read as what it spells. -/
theorem foldl_step_of_spells {delimiters : List Char} {mode : Mode} {text read : List Char}
    (h : mode.Spells delimiters text read) (h_mode : mode ≠ .blank)
    (h_room : scanner.full = false) (h_escaped : scanner.escaped = false)
    (h_same : scanner.mode = mode) (h_delimiters : scanner.delimiters = delimiters) :
    text.foldl step scanner =
      scanner.keep (String.ofList read) (String.ofList text).utf8ByteSize := by
  induction h generalizing scanner with
  | nil => simp
  | @content c text read h_keeps _ ih =>
    rw [List.foldl_cons, step_of_keeps h_room h_escaped (h_same ▸ h_delimiters ▸ h_keeps)]
    have h_rest := @ih (scanner.keep (String.singleton c) c.utf8Size) h_room h_escaped h_same
      h_delimiters
    rw [h_rest]
    simp
  | @escaped c text read _ ih =>
    have h_split : '\\' :: c :: text = ['\\', c] ++ text := rfl
    rw [h_split, List.foldl_append, foldl_step_escaped h_room h_escaped (h_same ▸ h_mode)]
    have h_rest := @ih (scanner.keep (String.singleton c) (String.ofList ['\\', c]).utf8ByteSize)
      h_room h_escaped h_same h_delimiters
    rw [h_rest]
    simp [Nat.add_assoc]

/-! ### Quoted spans -/

/-- **A span between quotes.** It ends what is pending, and what is spelled in it becomes a token of
its own. -/
theorem foldl_step_quotes (h_room : scanner.full = false) (h_room' : scanner.flush.full = false)
    (h_escaped : scanner.escaped = false) (h_outside : scanner.mode ≠ .quoted)
    {body content : String}
    (h_body : Mode.quoted.Spells scanner.delimiters body.toList content.toList)
    (h_some : content ≠ "") :
    ("\"" ++ body ++ "\"").toList.foldl step scanner =
      { scanner.flush.emit .doubleQuoted content with
        consumed := scanner.consumed + ("\"" ++ body ++ "\"").utf8ByteSize } := by
  let inside : Scanner := { scanner.flush with mode := .quoted, consumed := scanner.consumed + 1 }
  let ready := inside.keep content body.utf8ByteSize
  have h_open : scanner.step '"' = inside := by
    rw [step_of_room h_room, take_opening h_escaped h_outside]
    rfl
  have h_content : body.toList.foldl step inside = ready := by
    have h_read := foldl_step_of_spells h_body (by decide) (by exact h_room' : inside.full = false)
      (escaped_flush scanner) rfl (delimiters_flush scanner)
    rwa [String.ofList_toList, String.ofList_toList] at h_read
  have h_pending : ready.pending = content := by
    simp [ready, inside, keep]
  have h_ready : ready.full = false := h_room'
  have h_emitted : ready.flush.emitted = scanner.flush.emitted.push ⟨.doubleQuoted, content⟩ := by
    rw [emitted_flush_of_pending h_ready (h_pending ▸ h_some), h_pending]
    rfl
  -- the closing quote emits the content
  have h_close : ready.step '"' =
      { scanner.flush.emit .doubleQuoted content with consumed := ready.consumed + 1 } := by
    have h_escaped : ready.escaped = false := escaped_flush scanner
    rw [step_of_room h_ready, take_closing h_escaped rfl, flush_eq, h_emitted, emit_eq,
      emitted_emit h_room']
    simp [ready, inside, keep]
    rfl
  have h_bytes : scanner.consumed + ("\"" ++ body ++ "\"").utf8ByteSize = ready.consumed + 1 := by
    have h_quote : "\"".utf8ByteSize = 1 := rfl
    rw [String.utf8ByteSize_append, String.utf8ByteSize_append, h_quote]
    simp [ready, inside, keep, Nat.add_assoc]
  have h_list : ("\"" ++ body ++ "\"").toList = '"' :: (body.toList ++ ['"']) := by simp
  rw [h_list, List.foldl_cons, h_open, List.foldl_append, h_content, List.foldl_cons,
    List.foldl_nil, h_close, h_bytes]

/-- **The spelling of a quoted token** is such a span. -/
theorem foldl_step_span (h_room : scanner.full = false) (h_room' : scanner.flush.full = false)
    (h_escaped : scanner.escaped = false) (h_outside : scanner.mode ≠ .quoted) {content : String}
    (h_some : content ≠ "") :
    (Token.spelling ⟨.doubleQuoted, content⟩).toList.foldl step scanner =
      { scanner.flush.emit .doubleQuoted content with
        consumed :=
          scanner.consumed + (Token.spelling ⟨.doubleQuoted, content⟩).utf8ByteSize } := by
  rw [Token.spelling_doubleQuoted]
  have h_body := Mode.spells_escape scanner.delimiters content
  exact foldl_step_quotes h_room h_room' h_escaped h_outside h_body h_some

end Scanner

end PocketShell
