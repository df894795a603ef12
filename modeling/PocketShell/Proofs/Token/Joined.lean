import Mathlib.Data.List.Chain
import PocketShell.Proofs.Token.Reading

/-!
# Reading what tokens spell

The text that some tokens spell is read as these tokens, in kind, content and number, if each of
them can be read at all (`Token.Readable`) and no two neighbours run together (`Token.Apart`): a
word behind a word and blanks behind blanks would be one token. All other neighbours stay apart, a
span next to a span, a word next to a delimiter or a span, and what a span contains does not matter.

The proof goes token by token. `Scanner.Between` is the state of a scanner between two tokens:
ending the pending token now would give all tokens so far, and nothing else is unfinished. A token
that stays apart from the last one leads from such a state to the next
(`Scanner.Between.append_spelling`), and so do any number of them (`Scanner.Between.append_join`).
-/

namespace PocketShell

namespace Token

/-- **Readable tokens:** those that a scanner can produce from their spelling. A word has no
characters with a meaning of their own, blanks are blank, and a delimiter is one character that is
nothing else first. The content of a quoted span is arbitrary. Nothing is read as single-quoted. -/
def Readable (delimiters : List Char) (token : Token) : Prop :=
  token.content ≠ "" ∧
    match token.kind with
    | .text => ∀ c ∈ token.content.toList,
        Text.isBlank c = false ∧ c ≠ '"' ∧ c ≠ '\\' ∧ c ∉ delimiters
    | .blank => ∀ c ∈ token.content.toList, Text.isBlank c = true
    | .doubleQuoted => True
    | .singleQuoted => False
    | .delimiter => ∃ c ∈ delimiters, token.content = String.singleton c ∧
        Text.isBlank c = false ∧ c ≠ '"' ∧ c ≠ '\\'

-- the characters of the content are gone through, never all characters that there are
instance (delimiters : List Char) (token : Token) : Decidable (token.Readable delimiters) :=
  match token with
  | ⟨.text, content⟩ => @instDecidableAnd (content ≠ "") _ inferInstance
      (List.decidableBAll (Scanner.Mode.plain.Keeps delimiters) content.toList)
  | ⟨.blank, content⟩ => @instDecidableAnd (content ≠ "") _ inferInstance
      (List.decidableBAll (Scanner.Mode.blank.Keeps delimiters) content.toList)
  | ⟨.doubleQuoted, content⟩ => inferInstanceAs (Decidable (content ≠ "" ∧ True))
  | ⟨.singleQuoted, content⟩ => inferInstanceAs (Decidable (content ≠ "" ∧ False))
  | ⟨.delimiter, content⟩ => @instDecidableAnd (content ≠ "") _ inferInstance
      (List.decidableBEx (fun c => content = String.singleton c ∧ Text.isBlank c = false ∧
        c ≠ '"' ∧ c ≠ '\\') delimiters)

/-- **Tokens that stay apart** when the second stands right behind the first. -/
def Apart (first second : Token) : Prop :=
  ¬ (first.kind = second.kind ∧ (first.kind = .text ∨ first.kind = .blank))

instance (first second : Token) : Decidable (first.Apart second) :=
  inferInstanceAs (Decidable (¬ _))

end Token

namespace Scanner

/-- **Between two tokens.** The tokens read so far, with what is unfinished of the last one. -/
structure Between (scanner : Scanner) (delimiters : List Char) (tokens : List Token) : Prop where
  unlimited : scanner.limit = none
  delimiters_eq : scanner.delimiters = delimiters
  not_escaped : scanner.escaped = false
  outside : scanner.mode ≠ .quoted
  /-- Ending the pending token gives all tokens so far. -/
  emitted_flush : scanner.flush.emitted.toList = tokens
  /-- What is pending is the last token. -/
  pending : scanner.pending = "" ∨ ∃ last ∈ tokens.getLast?, last.kind = scanner.mode.kind

namespace Between

variable {scanner : Scanner} {delimiters : List Char} {tokens : List Token}

theorem new (delimiters : List Char) : (new delimiters).Between delimiters [] where
  unlimited := rfl
  delimiters_eq := rfl
  not_escaped := rfl
  outside := nofun
  emitted_flush := rfl
  pending := .inl rfl

/-- Finishing gives the tokens. -/
theorem finish_eq (h : scanner.Between delimiters tokens) : scanner.finish.1 = tokens :=
  h.emitted_flush

theorem room (h : scanner.Between delimiters tokens) : scanner.full = false :=
  full_of_unlimited h.unlimited

theorem room_flush (h : scanner.Between delimiters tokens) : scanner.flush.full = false :=
  full_of_unlimited (by rw [limit_flush, h.unlimited])

/-- Ending the last token and emitting one more. -/
theorem emit (h : scanner.Between delimiters tokens) (kind : Token.Kind) (content : String)
    (consumed : Nat) :
    Between { scanner.flush.emit kind content with consumed } delimiters
      (tokens ++ [⟨kind, content⟩]) where
  unlimited := by simp [h.unlimited]
  delimiters_eq := by simp [h.delimiters_eq]
  not_escaped := by simp
  outside := by simp
  emitted_flush := by
    rw [emitted_flush_of_empty (by simp), emitted_emit h.room_flush, Array.toList_push,
      h.emitted_flush]
  pending := .inl (by simp)

/-- A word or a run of blanks behind a token of another sort. -/
theorem run (h : scanner.Between delimiters tokens) {mode : Mode} (h_mode : mode ≠ .quoted)
    {content : String} (h_some : content ≠ "")
    (h_keeps : ∀ c ∈ content.toList, mode.Keeps delimiters c)
    (h_apart : ∀ last ∈ tokens.getLast?, last.kind ≠ mode.kind) :
    (scanner.append content).Between delimiters (tokens ++ [⟨mode.kind, content⟩]) := by
  have h_parted : scanner.pending = "" ∨ scanner.mode ≠ mode := by
    refine h.pending.imp_right ?_
    rintro ⟨last, h_last, h_kind⟩ rfl
    exact h_apart last h_last h_kind
  let after := { scanner.flush with mode }.keep content content.utf8ByteSize
  have h_read : scanner.append content = after := by
    have h_run := foldl_step_run h.room h.room_flush h.not_escaped h.outside h_mode
      (by simpa using h_some) h_parted (h.delimiters_eq ▸ h_keeps)
    rw [String.ofList_toList, ← append_eq_foldl] at h_run
    exact h_run
  have h_room : after.full = false := h.room_flush
  have h_pending : after.pending = content := by
    simp [after, keep]
  -- the content is pending, as the last token
  have h_emitted : after.flush.emitted = scanner.flush.emitted.push ⟨mode.kind, content⟩ := by
    rw [emitted_flush_of_pending h_room (h_pending ▸ h_some), h_pending]
    rfl
  rw [h_read]
  exact {
    unlimited := (limit_flush scanner).trans h.unlimited
    delimiters_eq := (delimiters_flush scanner).trans h.delimiters_eq
    not_escaped := escaped_flush scanner
    outside := h_mode
    emitted_flush := by rw [h_emitted, Array.toList_push, h.emitted_flush]
    pending := .inr ⟨⟨mode.kind, content⟩, by simp, rfl⟩ }

/-- **One more token.** It has to stay apart from the last one. -/
theorem append_spelling (h : scanner.Between delimiters tokens) {token : Token}
    (h_read : token.Readable delimiters) (h_apart : ∀ last ∈ tokens.getLast?, last.Apart token) :
    (scanner.append token.spelling).Between delimiters (tokens ++ [token]) := by
  obtain ⟨kind, content⟩ := token
  obtain ⟨h_some, h_content⟩ := h_read
  cases kind with
  | text =>
    have h_mode : Mode.plain ≠ .quoted := nofun
    refine h.run h_mode h_some h_content fun last h_last h_kind => ?_
    exact h_apart last h_last ⟨h_kind, .inl h_kind⟩
  | blank =>
    have h_mode : Mode.blank ≠ .quoted := nofun
    refine h.run h_mode h_some h_content fun last h_last h_kind => ?_
    exact h_apart last h_last ⟨h_kind, .inr h_kind⟩
  | doubleQuoted =>
    rw [append_eq_foldl, foldl_step_span h.room h.room_flush h.not_escaped h.outside h_some]
    exact h.emit .doubleQuoted content _
  | singleQuoted => exact h_content.elim
  | delimiter =>
    obtain ⟨c, h_mem, rfl, h_blank, h_quote, h_backslash⟩ := h_content
    have h_take := take_delimiter h.not_escaped h.outside (h.delimiters_eq ▸ h_mem) h_blank h_quote
      h_backslash
    have h_step : scanner.append (String.singleton c) = scanner.step c := by
      simp [append_eq_foldl]
    rw [show Token.spelling ⟨.delimiter, String.singleton c⟩ = String.singleton c from rfl, h_step,
      step_of_room h.room, h_take]
    exact h.emit .delimiter (String.singleton c) _

/-- **Any number of tokens,** each of which stays apart from the one before it. -/
theorem append_join (h : scanner.Between delimiters tokens) {more : List Token}
    (h_read : ∀ token ∈ more, token.Readable delimiters)
    (h_apart : (tokens ++ more).IsChain Token.Apart) :
    (scanner.append (Token.join more)).Between delimiters (tokens ++ more) := by
  induction more generalizing scanner tokens with
  | nil => simpa [append_eq_foldl] using h
  | cons token more ih =>
    have h_last : ∀ last ∈ tokens.getLast?, last.Apart token := fun last h_last =>
      (List.isChain_append.1 h_apart).2.2 last h_last token rfl
    have h_first := h.append_spelling (h_read token List.mem_cons_self) h_last
    have h_join : Token.join (token :: more) = token.spelling ++ Token.join more := by
      apply String.toList_inj.1
      simp
    have h_assoc : tokens ++ token :: more = tokens ++ [token] ++ more := by simp
    rw [h_join, append_append, h_assoc]
    exact ih h_first (fun token h_mem => h_read token (List.mem_cons_of_mem _ h_mem))
      (h_assoc ▸ h_apart)

end Between

/-- **Reading undoes joining.** With any delimiters, the text that readable tokens spell is read as
these tokens, if neighbours stay apart. -/
theorem finish_append_join {delimiters : List Char} {tokens : List Token}
    (h_read : ∀ token ∈ tokens, token.Readable delimiters)
    (h_apart : tokens.IsChain Token.Apart) :
    ((new delimiters).append (Token.join tokens)).finish.1 = tokens :=
  ((Between.new delimiters).append_join h_read h_apart).finish_eq

/-- A word in front of a delimiter, a span behind it, a span behind a span, blanks, and quotes,
backslashes, delimiters and blanks inside quotes. -/
theorem finish_append_join_neighbours :
    let tokens : List Token :=
      [⟨.text, "say"⟩, ⟨.delimiter, "="⟩, ⟨.doubleQuoted, "a \"b\" \\ = c"⟩, ⟨.doubleQuoted, " "⟩,
        ⟨.blank, " \t"⟩, ⟨.delimiter, "="⟩, ⟨.delimiter, "="⟩, ⟨.blank, " "⟩, ⟨.text, "it's"⟩]
    (∀ token ∈ tokens, token.Readable ['=']) ∧ tokens.IsChain Token.Apart ∧
      Token.join tokens = "say=\"a \\\"b\\\" \\\\ = c\"\" \" \t== it's" ∧
      ((new ['=']).append (Token.join tokens)).finish.1 = tokens := by
  intro tokens
  have h_read : ∀ token ∈ tokens, token.Readable ['='] := by decide
  have h_apart : tokens.IsChain Token.Apart := by decide
  exact ⟨h_read, h_apart, by rfl, finish_append_join h_read h_apart⟩

end Scanner

end PocketShell
