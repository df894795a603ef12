import PocketShell.Proofs.Token.Reading

/-!
# Which texts come back from their tokens

Joining the tokens of a text gives the text back if it is well quoted, and only then. A text is
**well quoted** (`Token.WellQuoted`) when it consists of characters other than quotes and
backslashes and of quoted spans; a span is not empty, and inside it backslashes stand in front of
quotes and backslashes only. What else a text may contain is lost or changed on the way
(`Token.Flaw`): a backslash outside quotes, a needless one inside, a pair of quotes with nothing in
it, a backslash at the end, a quote that is not closed.

Between the text and what its tokens are joined to stands `Scanner.echo`. It writes the joined text
while it goes through the given one, and knows only where it is with respect to quotes and whether
it is behind a backslash; neither tokens nor delimiters appear in it.

* `Scanner.toList_join_finish` — joining the tokens of a text is echoing it. The invariant is
  `Scanner.written`: what has been emitted, joined, and as much of the pending token as is certain.
* `Token.echo_of_wellQuoted` — well quoted texts are echoed as they are.
* `Token.echo_ne_of_flaw` — a flaw is not echoed as it is, whatever stands behind it. What is
  dropped could be made good only by the quote that closes an open span at the end, and counting
  backslashes and quotes (`Scanner.count_backslash_echo_le`, `Scanner.count_quote_echo_le`) shows
  that it is never enough.
* `Token.wellQuoted_or_flawed` — a text that is not well quoted has a flaw.
-/

namespace PocketShell

/-! ### Echoing a text -/

namespace Scanner

/-- **Places** with respect to quotes. -/
inductive Place where
  | outside
  /-- Behind an opening quote, with nothing read since. -/
  | opened
  | inside
  deriving DecidableEq, Repr

namespace Place

/-- What joining writes for a character of content. The opening quote is written with the first
character of the span. -/
def shown : Place → Char → List Char
  | .outside, c => [c]
  | .opened, c => '"' :: Text.escapeChar ['"', '\\'] c
  | .inside, c => Text.escapeChar ['"', '\\'] c

/-- The place behind a character of content. -/
def next : Place → Place
  | .outside => .outside
  | .opened | .inside => .inside

/-- What joining writes where a token ends: the closing quote, if there is a span. -/
def ending : Place → List Char
  | .inside => ['"']
  | .outside | .opened => []

/-- The place behind a quote. -/
def turn : Place → Place
  | .outside => .opened
  | .opened | .inside => .outside

/-- What is written of a pending token. -/
def begun : Place → String → List Char
  | .outside, pending => pending.toList
  | .opened, _ => []
  | .inside, pending => '"' :: (Text.escape ['"', '\\'] pending).toList

end Place

/-- **Echoing.** What joining the tokens makes of a text, from a place on; `escaped` says whether
the text stands behind a backslash. -/
def echo : Place → (escaped : Bool) → List Char → List Char
  | place, _, [] => place.ending
  | place, true, c :: cs => place.shown c ++ echo place.next false cs
  | place, false, c :: cs =>
    if c = '\\' then echo place true cs
    else if c = '"' then place.ending ++ echo place.turn false cs
    else place.shown c ++ echo place.next false cs

@[simp] theorem echo_backslash (place : Place) (cs : List Char) :
    echo place false ('\\' :: cs) = echo place true cs := by
  rw [echo, if_pos rfl]

@[simp] theorem echo_quote (place : Place) (cs : List Char) :
    echo place false ('"' :: cs) = place.ending ++ echo place.turn false cs := by
  rw [echo, if_neg (by decide), if_pos rfl]

theorem echo_of_ne_special (place : Place) {c : Char} (h : c ≠ '\\' ∧ c ≠ '"') (cs : List Char) :
    echo place false (c :: cs) = place.shown c ++ echo place.next false cs := by
  rw [echo, if_neg h.1, if_neg h.2]

/-- Where a scanner is with respect to quotes. -/
def place (scanner : Scanner) : Place :=
  if scanner.mode ≠ .quoted then .outside
  else if scanner.pending = "" then .opened
  else .inside

/-- What is written of the text that a scanner has read. -/
def written (scanner : Scanner) : List Char :=
  (Token.join scanner.emitted.toList).toList ++ scanner.place.begun scanner.pending

section

variable {scanner : Scanner}

theorem place_of_ne_quoted (h : scanner.mode ≠ .quoted) : scanner.place = .outside := by
  rw [place, if_pos h]

@[simp] theorem place_flush (scanner : Scanner) : scanner.flush.place = .outside :=
  place_of_ne_quoted (by rw [mode_flush]; decide)

theorem place_opening (scanner : Scanner) :
    place { scanner.flush with mode := .quoted } = .opened := by
  simp [place]

@[simp] theorem place_hold (scanner : Scanner) (c : Char) :
    (scanner.hold c).place = scanner.place.next := by
  unfold place hold
  by_cases h_mode : scanner.mode = .quoted
  · by_cases h_empty : scanner.pending = ""
    · simp [h_mode, h_empty, Place.next]
    · simp [h_mode, h_empty, Place.next]
  · simp [h_mode, Place.next]

/-- A character of content is written as the place says. -/
@[simp] theorem written_hold (scanner : Scanner) (c : Char) :
    (scanner.hold c).written = scanner.written ++ scanner.place.shown c := by
  unfold written
  rw [place_hold]
  unfold place
  by_cases h_mode : scanner.mode = .quoted
  · by_cases h_empty : scanner.pending = ""
    · simp [h_mode, h_empty, Place.next, Place.begun, Place.shown, hold]
    · simp [h_mode, h_empty, Place.next, Place.begun, Place.shown, hold]
  · simp [h_mode, Place.next, Place.begun, Place.shown, hold]

/-- With nothing pending, what was emitted is all that is written. -/
theorem written_of_empty (h : scanner.pending = "") :
    scanner.written = (Token.join scanner.emitted.toList).toList := by
  unfold written place
  by_cases h_mode : scanner.mode = .quoted
  · simp [h, h_mode, Place.begun]
  · simp [h, h_mode, Place.begun]

theorem ending_of_empty (h : scanner.pending = "") : scanner.place.ending = [] := by
  unfold place
  by_cases h_mode : scanner.mode = .quoted
  · simp [h, h_mode, Place.ending]
  · simp [h_mode, Place.ending]

/-- Ending a token writes a closing quote, if there is a span to close. -/
theorem written_flush (h_limit : scanner.limit = none) :
    scanner.flush.written = scanner.written ++ scanner.place.ending := by
  rw [written_of_empty (pending_flush scanner)]
  by_cases h_empty : scanner.pending = ""
  · rw [emitted_flush_of_empty h_empty, written_of_empty h_empty, ending_of_empty h_empty,
      List.append_nil]
  · rw [emitted_flush_of_pending (full_of_unlimited h_limit) h_empty, written, place]
    cases h_mode : scanner.mode with
    | plain => simp [Place.begun, Place.ending, Token.join, Token.spelling, Mode.kind,
        Token.Kind.quote?]
    | blank => simp [Place.begun, Place.ending, Token.join, Token.spelling, Mode.kind,
        Token.Kind.quote?]
    | quoted => simp [Place.begun, Place.ending, Token.join, Token.spelling, Mode.kind,
        Token.Kind.quote?, h_empty]

theorem written_flush_mode (scanner : Scanner) (mode : Mode) :
    written { scanner.flush with mode } = scanner.flush.written := by
  rw [written_of_empty (pending_flush scanner)]
  exact written_of_empty (pending_flush scanner)

theorem written_delimiter (h_limit : scanner.limit = none) (c : Char) :
    (scanner.flush.emit .delimiter (String.singleton c)).written =
      scanner.flush.written ++ [c] := by
  have h_room : scanner.flush.full = false := full_of_unlimited (by rw [limit_flush, h_limit])
  rw [written_of_empty (by simp), written_of_empty (pending_flush scanner), emitted_emit h_room]
  simp [Token.join, Token.spelling, Token.Kind.quote?]

/-- **One character.** What it makes a scanner write, and what is then echoed of the rest. -/
theorem Takes.written {c : Char} {after : Scanner} (h : scanner.Takes c after)
    (h_limit : scanner.limit = none) (cs : List Char) :
    after.written ++ echo after.place after.escaped cs =
      scanner.written ++ echo scanner.place scanner.escaped (c :: cs) := by
  cases h with
  | literal h_escaped =>
    rw [h_escaped, echo, ← List.append_assoc, ← written_hold, ← place_hold]
    rfl
  | backslash h_escaped h_backslash =>
    -- the end of a run of blanks writes nothing, and the place stays the same
    have h_end : scanner.endBlanks.written = scanner.written ∧
        scanner.endBlanks.place = scanner.place := by
      by_cases h_blank : scanner.mode = .blank
      · have h_place : scanner.place = .outside :=
          place_of_ne_quoted (by rw [h_blank]; decide)
        rw [endBlanks_of_blank h_blank, written_flush h_limit, place_flush, h_place]
        exact ⟨List.append_nil _, rfl⟩
      · rw [endBlanks_of_ne_blank h_blank]
        exact ⟨rfl, rfl⟩
    rw [h_escaped, h_backslash, echo_backslash, ← h_end.1, ← h_end.2]
    rfl
  | opening h_escaped h_quote h_mode =>
    have h_place : scanner.place = .outside := place_of_ne_quoted h_mode
    rw [written_flush_mode, written_flush h_limit, place_opening, h_place, h_escaped, h_quote,
      echo_quote]
    simp [Place.ending, Place.turn]
  | closing h_escaped h_quote h_mode =>
    have h_turn : scanner.place.turn = .outside := by
      unfold place
      by_cases h_empty : scanner.pending = ""
      · simp [h_mode, h_empty, Place.turn]
      · simp [h_mode, h_empty, Place.turn]
    rw [written_flush h_limit, place_flush, escaped_flush, h_escaped, h_quote, echo_quote, h_turn,
      List.append_assoc]
  | blank h_escaped h_mode h_blank =>
    have h_place : scanner.place = .outside := place_of_ne_quoted (by rw [h_mode]; decide)
    have h_run : place { scanner.flush with mode := .blank } = .outside :=
      place_of_ne_quoted (show Mode.blank ≠ .quoted by decide)
    rw [written_hold, place_hold, written_flush_mode, written_flush h_limit, h_place, h_run,
      h_escaped, echo_of_ne_special _ (Text.ne_special_of_isBlank h_blank)]
    simp [Place.ending, hold]
  | content h_escaped h_keeps =>
    rw [written_hold, place_hold, h_escaped, echo_of_ne_special _ h_keeps.ne_special,
      List.append_assoc]
    simp [hold, h_escaped]
  | word h_escaped h_mode h_keeps =>
    have h_place : scanner.place = .outside := place_of_ne_quoted (by rw [h_mode]; decide)
    rw [written_hold, place_hold, written_flush h_limit, place_flush, h_place, h_escaped,
      echo_of_ne_special _ h_keeps.ne_special]
    simp [Place.ending, hold]
  | delimiter h_escaped h_mode h_mem h_blank h_quote h_backslash =>
    have h_place : scanner.place = .outside := place_of_ne_quoted h_mode
    have h_after : (scanner.flush.emit .delimiter (String.singleton c)).place = .outside :=
      place_of_ne_quoted (by simp)
    rw [written_delimiter h_limit, written_flush h_limit, h_after, h_place, h_escaped,
      echo_of_ne_special _ ⟨h_backslash, h_quote⟩]
    simp [Place.ending, Place.shown, Place.next]

/-- **Reading a text** and finishing writes what is echoed of it. -/
theorem written_flush_foldl (h_limit : scanner.limit = none) (cs : List Char) :
    (cs.foldl step scanner).flush.written =
      scanner.written ++ echo scanner.place scanner.escaped cs := by
  induction cs generalizing scanner with
  | nil => rw [List.foldl_nil, written_flush h_limit, echo]
  | cons c cs ih =>
    have h_step := step_of_room (full_of_unlimited h_limit) c
    have h_written : (scanner.step c).written ++
        echo (scanner.step c).place (scanner.step c).escaped cs =
          scanner.written ++ echo scanner.place scanner.escaped (c :: cs) := by
      rw [h_step]
      exact (scanner.takes c).written h_limit cs
    rw [List.foldl_cons, ih ((limit_step scanner c).trans h_limit), h_written]

end

/-- **Joining the tokens of a text** is echoing it, whatever the delimiters are. -/
theorem toList_join_finish (delimiters : List Char) (text : String) :
    (Token.join ((new delimiters).append text).finish.1).toList =
      echo .outside false text.toList := by
  have h_written := @written_flush_foldl (new delimiters) rfl text.toList
  rw [written_of_empty (pending_flush _), ← append_eq_foldl] at h_written
  exact h_written

/-! ### Counting backslashes and quotes -/

theorem escapeChar_of_ne_special {c : Char} (h : c ≠ '\\' ∧ c ≠ '"') :
    Text.escapeChar ['"', '\\'] c = [c] := by
  simp [Text.escapeChar, h.1, h.2]

theorem count_backslash_escapeChar_le (c : Char) :
    (Text.escapeChar ['"', '\\'] c).count '\\' ≤ [c].count '\\' + 1 := by
  unfold Text.escapeChar
  split
  · exact Nat.le_of_eq List.count_cons_self
  · exact Nat.le_succ _

theorem count_quote_escapeChar (c : Char) :
    (Text.escapeChar ['"', '\\'] c).count '"' = [c].count '"' := by
  unfold Text.escapeChar
  split
  · exact List.count_cons_of_ne (by decide)
  · rfl

theorem count_backslash_shown_le (place : Place) (c : Char) :
    (place.shown c).count '\\' ≤ [c].count '\\' + 1 := by
  cases place with
  | outside => exact Nat.le_succ _
  | opened =>
    rw [Place.shown, List.count_cons_of_ne (by decide)]
    exact count_backslash_escapeChar_le c
  | inside => exact count_backslash_escapeChar_le c

theorem count_backslash_shown (place : Place) {c : Char} (h : c ≠ '\\' ∧ c ≠ '"') :
    (place.shown c).count '\\' = 0 := by
  have h_ne : [c].count '\\' = 0 := List.count_cons_of_ne h.1
  cases place with
  | outside => exact h_ne
  | opened => rw [Place.shown, escapeChar_of_ne_special h, List.count_cons_of_ne (by decide), h_ne]
  | inside => rw [Place.shown, escapeChar_of_ne_special h, h_ne]

theorem count_quote_shown (place : Place) (c : Char) :
    (place.shown c).count '"' = [c].count '"' + if place = .opened then 1 else 0 := by
  cases place with
  | outside => rfl
  | opened => rw [Place.shown, List.count_cons_self, count_quote_escapeChar]; rfl
  | inside => rw [Place.shown, count_quote_escapeChar]; rfl

/-- No more backslashes are echoed than there are. -/
theorem count_backslash_echo_le (place : Place) (escaped : Bool) (cs : List Char) :
    (echo place escaped cs).count '\\' ≤ cs.count '\\' + if escaped then 1 else 0 := by
  induction cs generalizing place escaped with
  | nil => cases place <;> simp [echo, Place.ending]
  | cons c cs ih =>
    have h_cons : (c :: cs).count '\\' = [c].count '\\' + cs.count '\\' := by
      rw [← List.count_append, List.singleton_append]
    cases escaped with
    | true =>
      -- the escape pays for the backslash that joining writes
      have h_rest : (echo place.next false cs).count '\\' ≤ cs.count '\\' := ih place.next false
      have h_shown := count_backslash_shown_le place c
      rw [echo, List.count_append, h_cons, if_pos rfl]
      omega
    | false =>
      by_cases h_backslash : c = '\\'
      · rw [h_backslash, echo_backslash, List.count_cons_self]
        exact ih place true
      by_cases h_quote : c = '"'
      · have h_rest : (echo place.turn false cs).count '\\' ≤ cs.count '\\' := ih place.turn false
        have h_ending : place.ending.count '\\' = 0 := by cases place <;> decide
        rw [h_quote, echo_quote, List.count_append, h_ending, List.count_cons_of_ne (by decide)]
        simpa using h_rest
      · have h_rest : (echo place.next false cs).count '\\' ≤ cs.count '\\' := ih place.next false
        have h_shown := count_backslash_shown place ⟨h_backslash, h_quote⟩
        rw [echo_of_ne_special _ ⟨h_backslash, h_quote⟩, List.count_append, h_cons]
        omega

/-- At most one quote more is echoed than there is, to close a span at the end; and one more still
if the opening quote of a span is due. -/
theorem count_quote_echo_le (place : Place) (escaped : Bool) (cs : List Char) :
    (echo place escaped cs).count '"' ≤ cs.count '"' + if place = .opened then 2 else 1 := by
  induction cs generalizing place escaped with
  | nil => cases place <;> simp [echo, Place.ending]
  | cons c cs ih =>
    have h_cons : (c :: cs).count '"' = [c].count '"' + cs.count '"' := by
      rw [← List.count_append, List.singleton_append]
    have h_content : (place.shown c ++ echo place.next false cs).count '"' ≤
        (c :: cs).count '"' + if place = .opened then 2 else 1 := by
      have h_rest : (echo place.next false cs).count '"' ≤ cs.count '"' + 1 := by
        cases place <;> exact ih _ false
      rw [List.count_append, count_quote_shown, h_cons]
      split <;> omega
    cases escaped with
    | true => exact h_content
    | false =>
      by_cases h_backslash : c = '\\'
      · rw [h_backslash, echo_backslash, List.count_cons_of_ne (by decide)]
        exact ih place true
      by_cases h_quote : c = '"'
      · -- the quote itself pays for what is written at the end of a span
        have h_rest := ih place.turn false
        rw [h_quote, echo_quote, List.count_append, List.count_cons_self]
        cases place <;> simp [Place.ending, Place.turn] at h_rest ⊢ <;> omega
      · rw [echo_of_ne_special _ ⟨h_backslash, h_quote⟩]
        exact h_content

end Scanner

/-! ### Well quoted texts -/

namespace Token

/-- **The inside of a quoted span.** Backslashes stand in front of quotes and backslashes only, and
quotes behind backslashes only. -/
inductive QuotedBody : List Char → Prop where
  | nil : QuotedBody []
  | plain {c : Char} {cs : List Char} : c ≠ '\\' ∧ c ≠ '"' → QuotedBody cs → QuotedBody (c :: cs)
  | escape {c : Char} {cs : List Char} : c = '\\' ∨ c = '"' → QuotedBody cs →
      QuotedBody ('\\' :: c :: cs)

/-- **Well quoted texts** consist of characters other than quotes and backslashes and of quoted
spans that are not empty. -/
inductive WellQuoted : List Char → Prop where
  | nil : WellQuoted []
  | plain {c : Char} {cs : List Char} : c ≠ '\\' ∧ c ≠ '"' → WellQuoted cs → WellQuoted (c :: cs)
  | span {body cs : List Char} : QuotedBody body → body ≠ [] → WellQuoted cs →
      WellQuoted ('"' :: body ++ '"' :: cs)

/-- **Flaws.** What a text that is not well quoted goes on with where it stops being so. -/
inductive Flaw : List Char → Prop where
  /-- An escape outside quotes. -/
  | escape {c : Char} {cs : List Char} : Flaw ('\\' :: c :: cs)
  /-- A backslash at the end, outside quotes. -/
  | backslash : Flaw ['\\']
  /-- Quotes with nothing in them. -/
  | emptySpan {cs : List Char} : Flaw ('"' :: '"' :: cs)
  /-- A needless escape inside quotes. -/
  | needless {body cs : List Char} {c : Char} : QuotedBody body → c ≠ '\\' ∧ c ≠ '"' →
      Flaw ('"' :: body ++ '\\' :: c :: cs)
  /-- A quote that is not closed. -/
  | unclosed {body : List Char} : QuotedBody body → Flaw ('"' :: body)
  /-- A backslash at the end, inside quotes. -/
  | unclosedBackslash {body : List Char} : QuotedBody body → Flaw ('"' :: body ++ ['\\'])

/-- A text with a flaw behind a part that is well quoted. -/
def Flawed (cs : List Char) : Prop :=
  ∃ front rest, cs = front ++ rest ∧ WellQuoted front ∧ Flaw rest

open Scanner

/-! ### Well quoted texts are echoed as they are -/

theorem echo_inside_of_body {body : List Char} (h : QuotedBody body) (rest : List Char) :
    echo .inside false (body ++ rest) = body ++ echo .inside false rest := by
  induction h with
  | nil => rfl
  | plain h_plain _ ih =>
    rw [List.cons_append, echo_of_ne_special _ h_plain, Place.shown,
      escapeChar_of_ne_special h_plain, Place.next, ih]
    rfl
  | @escape c cs h_special _ ih =>
    have h_spelling : Text.escapeChar ['"', '\\'] c = ['\\', c] := by
      rcases h_special with rfl | rfl <;> rfl
    rw [List.cons_append, List.cons_append, echo_backslash, echo, Place.shown, h_spelling,
      Place.next, ih]
    rfl

/-- The opening quote of a span is written with its first character. -/
theorem echo_opened_of_body {body : List Char} (h : QuotedBody body) (h_some : body ≠ [])
    (rest : List Char) :
    echo .opened false (body ++ rest) = '"' :: (body ++ echo .inside false rest) := by
  rw [← echo_inside_of_body h]
  cases h with
  | nil => exact absurd rfl h_some
  | plain h_plain _ =>
    rw [List.cons_append, echo_of_ne_special _ h_plain, echo_of_ne_special _ h_plain]
    rfl
  | escape _ _ =>
    rw [List.cons_append, List.cons_append, echo_backslash, echo_backslash, echo, echo]
    rfl

theorem echo_append_of_wellQuoted {front : List Char} (h : WellQuoted front) (rest : List Char) :
    echo .outside false (front ++ rest) = front ++ echo .outside false rest := by
  induction h with
  | nil => rfl
  | plain h_plain _ ih =>
    rw [List.cons_append, echo_of_ne_special _ h_plain, Place.next, ih]
    rfl
  | @span body cs h_body h_some _ ih =>
    have h_assoc : '"' :: body ++ '"' :: cs ++ rest = '"' :: (body ++ '"' :: (cs ++ rest)) := by
      simp
    rw [h_assoc, echo_quote, Place.turn, echo_opened_of_body h_body h_some, echo_quote, Place.turn,
      ih]
    simp [Place.ending]

/-- **A well quoted text is echoed as it is.** -/
theorem echo_of_wellQuoted {cs : List Char} (h : WellQuoted cs) : echo .outside false cs = cs := by
  simpa [echo, Place.ending] using echo_append_of_wellQuoted h []

/-! ### Flaws are not -/

/-- **A flaw is not echoed as it is.** -/
theorem echo_ne_of_flaw {cs : List Char} (h : Flaw cs) : echo .outside false cs ≠ cs := by
  intro h_eq
  cases h with
  | @escape c cs =>
    -- a backslash is dropped, and no backslash is made
    rw [echo_backslash, echo] at h_eq
    obtain ⟨rfl, h_rest⟩ := List.cons.inj h_eq
    have h_count := count_backslash_echo_le .outside false cs
    rw [show echo .outside false cs = '\\' :: cs from h_rest, List.count_cons_self,
      if_neg (by decide)] at h_count
    omega
  | backslash => simp [echo, Place.ending] at h_eq
  | @emptySpan cs =>
    -- two quotes are dropped, and closing an open span at the end makes one at most
    have h_count := count_quote_echo_le .outside false cs
    rw [echo_quote, Place.turn, echo_quote, Place.turn] at h_eq
    rw [show echo .outside false cs = '"' :: '"' :: cs from h_eq, List.count_cons_self,
      List.count_cons_self, if_neg (by decide)] at h_count
    omega
  | @needless body cs c h_body h_plain =>
    -- the character stands where the backslash stood
    rw [List.cons_append, echo_quote, Place.turn] at h_eq
    have h_inside : echo .opened false (body ++ '\\' :: c :: cs) =
        '"' :: (body ++ c :: echo .inside false cs) := by
      by_cases h_some : body = []
      · rw [h_some, List.nil_append, echo_backslash, echo, Place.shown,
          escapeChar_of_ne_special h_plain]
        rfl
      · rw [echo_opened_of_body h_body h_some, echo_backslash, echo, Place.shown,
          escapeChar_of_ne_special h_plain]
        rfl
    rw [h_inside] at h_eq
    obtain ⟨-, h_rest⟩ := List.cons.inj h_eq
    obtain ⟨h_c, -⟩ := List.cons.inj (List.append_cancel_left h_rest)
    exact h_plain.1 h_c
  | @unclosed body h_body =>
    -- a quote is dropped, or one is written behind the body
    rw [echo_quote, Place.turn] at h_eq
    by_cases h_some : body = []
    · simp [h_some, echo, Place.ending] at h_eq
    · have h_inside := echo_opened_of_body h_body h_some []
      rw [List.append_nil] at h_inside
      simp [h_inside, echo, Place.ending] at h_eq
  | @unclosedBackslash body h_body =>
    -- the quote that is written stands where the backslash stood
    rw [List.cons_append, echo_quote, Place.turn] at h_eq
    by_cases h_some : body = []
    · simp [h_some, echo, Place.ending] at h_eq
    · simp [echo_opened_of_body h_body h_some, echo, Place.ending] at h_eq

/-! ### What is not well quoted has a flaw -/

/-- From an opening quote on, the inside of a span goes on to the closing quote, to a needless
escape or to the end. -/
theorem exists_body (cs : List Char) : ∃ body rest, cs = body ++ rest ∧ QuotedBody body ∧
    (rest = [] ∨ rest = ['\\'] ∨ (∃ tail, rest = '"' :: tail) ∨
      ∃ c tail, rest = '\\' :: c :: tail ∧ c ≠ '\\' ∧ c ≠ '"') := by
  match cs with
  | [] => exact ⟨[], [], rfl, .nil, .inl rfl⟩
  | c :: cs =>
    by_cases h_quote : c = '"'
    · exact ⟨[], c :: cs, rfl, .nil, .inr (.inr (.inl ⟨cs, by rw [h_quote]⟩))⟩
    by_cases h_backslash : c = '\\'
    · -- what a backslash does depends on the character behind it
      match cs with
      | [] => exact ⟨[], [c], rfl, .nil, .inr (.inl (by rw [h_backslash]))⟩
      | d :: ds =>
        by_cases h_special : d = '\\' ∨ d = '"'
        · obtain ⟨body, rest, rfl, h_body, h_rest⟩ := exists_body ds
          exact ⟨'\\' :: d :: body, rest, by rw [h_backslash]; rfl, .escape h_special h_body,
            h_rest⟩
        · exact ⟨[], c :: d :: ds, rfl, .nil,
            .inr (.inr (.inr ⟨d, ds, by rw [h_backslash], not_or.1 h_special⟩))⟩
    · obtain ⟨body, rest, rfl, h_body, h_rest⟩ := exists_body cs
      exact ⟨c :: body, rest, rfl, .plain ⟨h_backslash, h_quote⟩ h_body, h_rest⟩
termination_by cs.length

theorem Flawed.of_flaw {cs : List Char} (h : Flaw cs) : Flawed cs :=
  ⟨[], cs, rfl, .nil, h⟩

/-- **A text is well quoted or has a flaw.** -/
theorem wellQuoted_or_flawed (cs : List Char) : WellQuoted cs ∨ Flawed cs := by
  match cs with
  | [] => exact .inl .nil
  | c :: cs =>
    by_cases h_backslash : c = '\\'
    · subst h_backslash
      cases cs with
      | nil => exact .inr (.of_flaw .backslash)
      | cons d ds => exact .inr (.of_flaw .escape)
    by_cases h_quote : c = '"'
    · subst h_quote
      obtain ⟨body, rest, h_split, h_body, rfl | rfl | ⟨tail, rfl⟩ | ⟨d, tail, rfl, h_plain⟩⟩ :=
        exists_body cs
      · rw [h_split, List.append_nil]
        exact .inr (.of_flaw (.unclosed h_body))
      · rw [h_split]
        exact .inr (.of_flaw (.unclosedBackslash h_body))
      · by_cases h_some : body = []
        · rw [h_split, h_some]
          exact .inr (.of_flaw .emptySpan)
        -- a whole span, and the text behind it is shorter
        have h_shorter : tail.length < cs.length := by
          rw [h_split, List.length_append, List.length_cons]
          omega
        rw [h_split]
        rcases wellQuoted_or_flawed tail with h_tail | ⟨front, rest, rfl, h_front, h_flaw⟩
        · exact .inl (.span h_body h_some h_tail)
        · exact .inr ⟨'"' :: body ++ '"' :: front, rest, by simp,
            .span h_body h_some h_front, h_flaw⟩
      · rw [h_split]
        exact .inr (.of_flaw (.needless h_body h_plain))
    · rcases wellQuoted_or_flawed cs with h_rest | ⟨front, rest, rfl, h_front, h_flaw⟩
      · exact .inl (.plain ⟨h_backslash, h_quote⟩ h_rest)
      · exact .inr ⟨c :: front, rest, rfl, .plain ⟨h_backslash, h_quote⟩ h_front, h_flaw⟩
termination_by cs.length
decreasing_by
  · rw [List.length_cons]
    omega
  · exact Nat.lt_succ_self _

/-- **Round trips.** With any delimiters, joining the tokens of a text gives the text back if and
only if the text is well quoted, and something else if and only if the text has a flaw. -/
theorem join_eq_iff_wellQuoted (delimiters : List Char) (text : String) :
    (join ((Scanner.new delimiters).append text).finish.1 = text ↔ WellQuoted text.toList) ∧
      (join ((Scanner.new delimiters).append text).finish.1 ≠ text ↔ Flawed text.toList) := by
  have h_echo : join ((Scanner.new delimiters).append text).finish.1 = text ↔
      echo .outside false text.toList = text.toList := by
    rw [← toList_join_finish delimiters, String.toList_inj]
  -- behind a well quoted part, what is echoed differs where the flaw does
  have h_flawed : Flawed text.toList → echo .outside false text.toList ≠ text.toList := by
    rintro ⟨front, rest, h_split, h_front, h_flaw⟩ h_eq
    rw [h_split, echo_append_of_wellQuoted h_front] at h_eq
    exact echo_ne_of_flaw h_flaw (List.append_cancel_left h_eq)
  have h_either := wellQuoted_or_flawed text.toList
  constructor
  · rw [h_echo]
    exact ⟨fun h_eq => h_either.resolve_right fun h => h_flawed h h_eq, echo_of_wellQuoted⟩
  · rw [Ne, h_echo]
    exact ⟨fun h_ne => h_either.resolve_left fun h => h_ne (echo_of_wellQuoted h), h_flawed⟩

end Token

end PocketShell
