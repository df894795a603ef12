import PocketShell.Proofs.Token.Reading

/-!
# What becomes of each character

No character of a text is lost, invented or put into a token of the wrong kind. What becomes of it
depends on two flags only: whether it stands between quotes, and whether it stands behind an
escaping backslash. `Scanner.labels` goes through a text with these flags. It drops the quotes and
backslashes that have a meaning and labels every other character with a kind of tokens; it knows
nothing about tokens, runs or pending characters.

The characters of the tokens of a text, each with the kind of its token (`Token.labelled`), are the
labelled characters of the text (`Scanner.flatMap_labelled_finish`).

A scanner gives all that is pending one kind, by the mode that it is in when the token ends. That
this is the right kind for each of the characters is what `Scanner.labelled` is about: what has been
emitted, and what is pending as if it ended now. With every character it grows by what the text says
at that place (`Scanner.Takes.labelled`). The one thing that could go wrong is an escaped character
in a run of blanks, and a backslash ends the run (`Scanner.Orderly`).
-/

namespace PocketShell

namespace Token

/-- The characters of a token, each with the kind of the token. -/
def labelled (token : Token) : List (Char × Kind) :=
  token.content.toList.map fun c => (c, token.kind)

/-- **Proper tokens.** No token is empty, and a delimiter is one character. -/
structure Proper (token : Token) : Prop where
  ne_empty : token.content ≠ ""
  single : token.kind = .delimiter → ∃ c, token.content = String.singleton c

end Token

namespace Scanner

/-- **The label of a character** that is kept: the kind of the token that it belongs to, given
whether it stands between quotes and whether it stands behind a backslash. -/
def label (delimiters : List Char) (quoted escaped : Bool) (c : Char) : Token.Kind :=
  if quoted then .doubleQuoted
  else if escaped then .text
  else if Text.isBlank c then .blank
  else if c ∈ delimiters then .delimiter
  else .text

/-- **Labels.** The characters of a text with their labels, without the quotes that are not escaped
and without the backslashes that escape, given whether the text begins between quotes and whether it
begins behind a backslash. -/
def labels (delimiters : List Char) :
    (quoted escaped : Bool) → List Char → List (Char × Token.Kind)
  | _, _, [] => []
  | quoted, escaped, c :: cs =>
    if escaped = false ∧ c = '\\' then labels delimiters quoted true cs
    else if escaped = false ∧ c = '"' then labels delimiters (!quoted) false cs
    else (c, label delimiters quoted escaped c) :: labels delimiters quoted false cs

section

variable (delimiters : List Char) (quoted : Bool)

@[simp] theorem labels_backslash (cs : List Char) :
    labels delimiters quoted false ('\\' :: cs) = labels delimiters quoted true cs := by
  rw [labels, if_pos ⟨rfl, rfl⟩]

@[simp] theorem labels_quote (cs : List Char) :
    labels delimiters quoted false ('"' :: cs) = labels delimiters (!quoted) false cs := by
  rw [labels, if_neg (by decide), if_pos ⟨rfl, rfl⟩]

theorem labels_escaped (c : Char) (cs : List Char) :
    labels delimiters quoted true (c :: cs) =
      (c, label delimiters quoted true c) :: labels delimiters quoted false cs := by
  rw [labels, if_neg (fun h => nomatch h.1), if_neg (fun h => nomatch h.1)]

theorem labels_of_ne_special {c : Char} (h : c ≠ '\\' ∧ c ≠ '"') (cs : List Char) :
    labels delimiters quoted false (c :: cs) =
      (c, label delimiters quoted false c) :: labels delimiters quoted false cs := by
  rw [labels, if_neg (fun h_eq => h.1 h_eq.2), if_neg (fun h_eq => h.2 h_eq.2)]

end

def inQuotes (scanner : Scanner) : Bool :=
  scanner.mode = .quoted

/-- What has been emitted, and what is pending as if it ended now: characters with their kinds. -/
def labelled (scanner : Scanner) : List (Char × Token.Kind) :=
  scanner.emitted.toList.flatMap Token.labelled ++
    Token.labelled ⟨scanner.mode.kind, scanner.pending⟩

/-- **Orderly scanners.** An unlimited scanner that has emitted proper tokens only, and is not in a
run of blanks when a character is escaped. -/
structure Orderly (scanner : Scanner) : Prop where
  unlimited : scanner.limit = none
  escaped_mode : scanner.escaped = true → scanner.mode ≠ .blank
  proper : ∀ token ∈ scanner.emitted, token.Proper

variable {scanner : Scanner} {c : Char}

theorem inQuotes_of_ne_quoted (h : scanner.mode ≠ .quoted) : scanner.inQuotes = false :=
  decide_eq_false h

/-! ### The label of a character is the kind that it gets -/

/-- Content is labelled with the kind of the mode that it is content in. -/
theorem label_of_keeps (h : scanner.mode.Keeps scanner.delimiters c) :
    label scanner.delimiters scanner.inQuotes false c = scanner.mode.kind := by
  unfold inQuotes
  cases h_mode : scanner.mode with
  | plain =>
    rw [h_mode] at h
    simp [label, Mode.kind, h.1, h.2.2.2]
  | blank =>
    rw [h_mode] at h
    have h_blank : Text.isBlank c = true := h
    simp [label, Mode.kind, h_blank]
  | quoted => simp [label, Mode.kind]

/-- An escaped character is labelled with the kind of any mode but blanks. -/
theorem label_of_escaped (h : scanner.mode ≠ .blank) :
    label scanner.delimiters scanner.inQuotes true c = scanner.mode.kind := by
  unfold inQuotes
  cases h_mode : scanner.mode with
  | plain => simp [label, Mode.kind]
  | blank => exact absurd h_mode h
  | quoted => simp [label, Mode.kind]

/-! ### What the steps of a scanner do to labels -/

theorem labelled_of_empty (h : scanner.pending = "") :
    scanner.labelled = scanner.emitted.toList.flatMap Token.labelled := by
  simp [labelled, Token.labelled, h]

/-- Ending a token changes no label: the kind that it gets is the one it was labelled with. -/
theorem labelled_flush (h_limit : scanner.limit = none) :
    scanner.flush.labelled = scanner.labelled := by
  rw [labelled_of_empty (pending_flush scanner)]
  by_cases h_empty : scanner.pending = ""
  · rw [emitted_flush_of_empty h_empty, labelled_of_empty h_empty]
  · rw [emitted_flush_of_pending (full_of_unlimited h_limit) h_empty]
    simp [labelled]

/-- Behind a token that has ended nothing is pending, so its mode labels nothing yet. -/
theorem labelled_flush_mode (h_limit : scanner.limit = none) (mode : Mode) :
    labelled { scanner.flush with mode } = scanner.labelled := by
  have h_pending : Scanner.pending { scanner.flush with mode } = "" := pending_flush scanner
  rw [← labelled_flush h_limit, labelled_of_empty h_pending,
    labelled_of_empty (pending_flush scanner)]

/-- A character behind the pending ones gets the kind of the mode. -/
theorem labelled_hold (scanner : Scanner) (c : Char) :
    (scanner.hold c).labelled = scanner.labelled ++ [(c, scanner.mode.kind)] := by
  simp [labelled, hold, Token.labelled]

theorem labelled_delimiter (h_limit : scanner.limit = none) (c : Char) :
    (scanner.flush.emit .delimiter (String.singleton c)).labelled =
      scanner.labelled ++ [(c, .delimiter)] := by
  have h_room : scanner.flush.full = false := full_of_unlimited (by rw [limit_flush, h_limit])
  have h_pending : (scanner.flush.emit .delimiter (String.singleton c)).pending = "" := by simp
  rw [← labelled_flush h_limit, labelled_of_empty h_pending, emitted_emit h_room,
    labelled_of_empty (pending_flush scanner)]
  simp [Token.labelled]

/-- **One character.** It adds to the labels what the text says at its place. -/
theorem Takes.labelled {after : Scanner} (h : scanner.Takes c after) (h_orderly : scanner.Orderly)
    (cs : List Char) :
    after.labelled ++ labels scanner.delimiters after.inQuotes after.escaped cs =
      scanner.labelled ++
        labels scanner.delimiters scanner.inQuotes scanner.escaped (c :: cs) := by
  have h_limit := h_orderly.unlimited
  cases h with
  | literal h_escaped =>
    -- no run of blanks is pending behind a backslash, so the mode is the right one
    have h_label := @label_of_escaped scanner c (h_orderly.escaped_mode h_escaped)
    show (scanner.hold c).labelled ++ labels scanner.delimiters scanner.inQuotes false cs = _
    rw [labelled_hold, h_escaped, labels_escaped, h_label, List.append_assoc]
    rfl
  | backslash h_escaped h_backslash =>
    have h_end : scanner.endBlanks.labelled = scanner.labelled ∧
        scanner.endBlanks.inQuotes = scanner.inQuotes := by
      by_cases h_blank : scanner.mode = .blank
      · rw [endBlanks_of_blank h_blank]
        exact ⟨labelled_flush h_limit, by simp [inQuotes, h_blank]⟩
      · rw [endBlanks_of_ne_blank h_blank]
        exact ⟨rfl, rfl⟩
    rw [h_escaped, h_backslash, labels_backslash, ← h_end.1, ← h_end.2]
    rfl
  | opening h_escaped h_quote h_mode =>
    -- the quote itself is dropped, here and in the labels
    rw [labelled_flush_mode h_limit, inQuotes_of_ne_quoted h_mode, h_escaped, h_quote, labels_quote]
    simp [inQuotes]
  | closing h_escaped h_quote h_mode =>
    rw [labelled_flush h_limit, escaped_flush, h_escaped, h_quote, labels_quote]
    simp [inQuotes, h_mode]
  | blank h_escaped h_mode h_blank =>
    -- what was pending keeps its kind, and the blank is the first of the next token
    have h_outside : scanner.inQuotes = false := by simp [inQuotes, h_mode]
    have h_label : label scanner.delimiters false false c = .blank := by simp [label, h_blank]
    rw [labelled_hold, labelled_flush_mode h_limit, h_outside, h_escaped,
      labels_of_ne_special _ _ (Text.ne_special_of_isBlank h_blank), h_label, List.append_assoc]
    simp [inQuotes, hold, Mode.kind]
  | content h_escaped h_keeps =>
    show (scanner.hold c).labelled ++
      labels scanner.delimiters scanner.inQuotes scanner.escaped cs = _
    rw [labelled_hold, h_escaped, labels_of_ne_special _ _ h_keeps.ne_special,
      label_of_keeps h_keeps, List.append_assoc]
    rfl
  | word h_escaped h_mode h_keeps =>
    have h_outside : scanner.inQuotes = false := by simp [inQuotes, h_mode]
    have h_label : label scanner.delimiters false false c = .text := by
      simp [label, h_keeps.1, h_keeps.2.2.2]
    rw [labelled_hold, labelled_flush h_limit, h_outside, h_escaped,
      labels_of_ne_special _ _ h_keeps.ne_special, h_label, List.append_assoc]
    simp [inQuotes, hold, Mode.kind]
  | delimiter h_escaped h_mode h_mem h_blank h_quote h_backslash =>
    have h_label : label scanner.delimiters false false c = .delimiter := by
      simp [label, h_blank, h_mem]
    rw [labelled_delimiter h_limit, inQuotes_of_ne_quoted h_mode, h_escaped,
      labels_of_ne_special _ _ ⟨h_backslash, h_quote⟩, h_label, List.append_assoc]
    simp [inQuotes]

/-! ### Scanners stay orderly -/

namespace Orderly

theorem new (delimiters : List Char) : (new delimiters).Orderly where
  unlimited := rfl
  escaped_mode h := nomatch h
  proper _ h := nomatch h

/-- A pending token that ends is not empty, and is no delimiter. -/
theorem flush (h : scanner.Orderly) : scanner.flush.Orderly where
  unlimited := by rw [limit_flush, h.unlimited]
  escaped_mode h_escaped := by simp at h_escaped
  proper token h_token := by
    by_cases h_empty : scanner.pending = ""
    · rw [emitted_flush_of_empty h_empty] at h_token
      exact h.proper token h_token
    · rw [emitted_flush_of_pending (full_of_unlimited h.unlimited) h_empty, Array.mem_push]
        at h_token
      rcases h_token with h_token | rfl
      · exact h.proper token h_token
      · refine ⟨h_empty, fun h_kind => ?_⟩
        cases h_mode : scanner.mode <;> simp [h_mode, Mode.kind] at h_kind

theorem emit_delimiter (h : scanner.Orderly) (c : Char) :
    (scanner.emit .delimiter (String.singleton c)).Orderly where
  unlimited := by rw [limit_emit, h.unlimited]
  escaped_mode h_escaped := by
    rw [mode_emit]
    rw [escaped_emit] at h_escaped
    exact h.escaped_mode h_escaped
  proper token h_token := by
    rw [emitted_emit (full_of_unlimited h.unlimited), Array.mem_push] at h_token
    rcases h_token with h_token | rfl
    · exact h.proper token h_token
    · exact ⟨by simp, fun _ => ⟨c, rfl⟩⟩

/-- Only what is emitted and how a character is escaped matters. -/
theorem of_emitted_eq {after : Scanner} (h : scanner.Orderly)
    (h_limit : after.limit = scanner.limit)
    (h_emitted : after.emitted = scanner.emitted)
    (h_mode : after.escaped = true → after.mode ≠ .blank) : after.Orderly where
  unlimited := h_limit.trans h.unlimited
  escaped_mode := h_mode
  proper := h_emitted ▸ h.proper

/-- **One character** leaves a scanner orderly. -/
theorem takes (h : scanner.Orderly) {after : Scanner} (h_takes : scanner.Takes c after) :
    after.Orderly := by
  cases h_takes with
  | literal _ => exact h.of_emitted_eq rfl rfl fun h_true => absurd h_true Bool.false_ne_true
  | backslash _ _ =>
    -- the one case in which the next character is escaped: a run of blanks is over
    by_cases h_blank : scanner.mode = .blank
    · rw [endBlanks_of_blank h_blank]
      exact h.flush.of_emitted_eq rfl rfl fun _ => by simp
    · rw [endBlanks_of_ne_blank h_blank]
      exact h.of_emitted_eq rfl rfl fun _ => h_blank
  | opening _ _ _ => exact h.flush.of_emitted_eq rfl rfl fun _ => by simp
  | closing _ _ _ => exact h.flush
  | blank _ _ _ => exact h.flush.of_emitted_eq rfl rfl fun h_escaped => by simp [hold] at h_escaped
  | content h_escaped _ =>
    refine h.of_emitted_eq rfl rfl fun h_true => ?_
    exact absurd (h_escaped.symm.trans h_true) Bool.false_ne_true
  | word _ _ _ => exact h.flush.of_emitted_eq rfl rfl fun _ => by simp [hold]
  | delimiter _ _ _ _ _ _ => exact h.flush.emit_delimiter c

end Orderly

/-- **Reading a text** leaves a scanner orderly and adds the labelled characters of the text. -/
theorem labelled_foldl (h : scanner.Orderly) (cs : List Char) :
    (cs.foldl step scanner).Orderly ∧
      (cs.foldl step scanner).labelled =
        scanner.labelled ++
          labels scanner.delimiters scanner.inQuotes scanner.escaped cs := by
  induction cs generalizing scanner with
  | nil => exact ⟨h, (List.append_nil _).symm⟩
  | cons c cs ih =>
    have h_takes := scanner.takes c
    have h_taken := h.takes h_takes
    have h_step := step_of_room (full_of_unlimited h.unlimited) c
    -- the count of bytes is all that a step adds to taking the character
    have h_orderly : (scanner.step c).Orderly := by
      rw [h_step]
      exact h_taken.of_emitted_eq rfl rfl h_taken.escaped_mode
    obtain ⟨h_rest, h_eq⟩ := ih h_orderly
    refine ⟨h_rest, ?_⟩
    rw [List.foldl_cons, h_eq, ← h_takes.labelled h cs, h_step]
    show (scanner.take c).labelled ++
      labels (scanner.take c).delimiters (scanner.take c).inQuotes (scanner.take c).escaped cs = _
    rw [h_takes.frame.1]

/-! ### The tokens of a text -/

theorem labelled_finish (delimiters : List Char) (text : String) :
    ((new delimiters).append text).finish.1.flatMap Token.labelled =
      labels delimiters false false text.toList := by
  obtain ⟨h_orderly, h_labelled⟩ := labelled_foldl (Orderly.new delimiters) text.toList
  rw [← append_eq_foldl] at h_orderly h_labelled
  calc ((new delimiters).append text).finish.1.flatMap Token.labelled
      = ((new delimiters).append text).flush.labelled :=
        (labelled_of_empty (pending_flush _)).symm
    _ = ((new delimiters).append text).labelled := labelled_flush h_orderly.unlimited
    _ = labels delimiters false false text.toList := h_labelled

theorem proper_of_mem_finish {delimiters : List Char} {text : String} {token : Token}
    (h : token ∈ ((new delimiters).append text).finish.1) : token.Proper := by
  have h_orderly := (labelled_foldl (Orderly.new delimiters) text.toList).1.flush
  rw [← append_eq_foldl] at h_orderly
  exact h_orderly.proper token (Array.mem_toList_iff.1 h)

/-- **No character is lost, invented or misclassified.** Whatever the delimiters and the text are,
no token is empty, a delimiter token is one character, and the characters of the tokens with the
kinds of their tokens are the labelled characters of the text. -/
theorem flatMap_labelled_finish (delimiters : List Char) (text : String) :
    (∀ token ∈ ((new delimiters).append text).finish.1, token.Proper) ∧
      ((new delimiters).append text).finish.1.flatMap Token.labelled =
        labels delimiters false false text.toList :=
  ⟨fun _ h_token => proper_of_mem_finish h_token, labelled_finish delimiters text⟩

/-- An escaped blank is text, and a delimiter between quotes is none. -/
example :
    labels ['='] false false "x\\ \"=\"= \\".toList =
      [('x', .text), (' ', .text), ('=', .doubleQuoted), ('=', .delimiter), (' ', .blank)] := by
  decide

end Scanner

end PocketShell
