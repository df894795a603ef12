import PocketShell.Proofs.Token.QuotedWord

/-!
# Reading with a limit

A scanner with a limit gives the first tokens that it would give without one, and it reads the text
just as far as it has to: to the first place at which the scanner without a limit has emitted enough
tokens, or to the end if there is no such place (`Scanner.finish_limited`). It counts whole
characters, so what it has not read can be told from the count.

The two scanners go on in parallel as long as there is room: the one is the other with its tokens
beyond the limit cut off (`Scanner.capped`, `Scanner.parallel_capped`). There may be some to cut
off, because a delimiter ends the token before it and is a token itself. Once the limit is reached
the scanner with the limit stands still. The other one goes on, but what it has emitted stays in
front of all that it will emit (`Scanner.prefix_foldl`), so nothing of that is among the first
tokens, and a token that is still pending is not either.
-/

namespace PocketShell.Scanner

variable {scanner : Scanner} {limit : Nat}

/-! ### What is emitted stays -/

theorem prefix_emit (scanner : Scanner) (kind : Token.Kind) (content : String) :
    scanner.emitted.toList <+: (scanner.emit kind content).emitted.toList := by
  unfold emit
  split
  · exact List.prefix_rfl
  · simp

theorem prefix_flush (scanner : Scanner) :
    scanner.emitted.toList <+: scanner.flush.emitted.toList := by
  unfold flush
  dsimp only
  split
  · exact List.prefix_rfl
  · exact prefix_emit scanner _ _

/-- No character takes back a token. -/
theorem Takes.isPrefix {c : Char} {after : Scanner} (h : scanner.Takes c after) :
    scanner.emitted.toList <+: after.emitted.toList := by
  cases h with
  | literal _ => exact List.prefix_rfl
  | backslash _ _ =>
    show _ <+: scanner.endBlanks.emitted.toList
    unfold endBlanks
    split
    · exact scanner.prefix_flush
    · exact List.prefix_rfl
  | opening _ _ _ => exact scanner.prefix_flush
  | closing _ _ _ => exact scanner.prefix_flush
  | blank _ _ _ => exact scanner.prefix_flush
  | content _ _ => exact List.prefix_rfl
  | word _ _ _ => exact scanner.prefix_flush
  | delimiter _ _ _ _ _ _ => exact scanner.prefix_flush.trans (prefix_emit _ _ _)

/-- **What is emitted stays,** whatever is read after it. -/
theorem prefix_foldl (scanner : Scanner) (cs : List Char) :
    scanner.emitted.toList <+: (cs.foldl step scanner).emitted.toList := by
  induction cs generalizing scanner with
  | nil => exact List.prefix_rfl
  | cons c cs ih =>
    have h_step : scanner.emitted.toList <+: (scanner.step c).emitted.toList := by
      unfold step
      split
      · exact List.prefix_rfl
      · exact (scanner.takes c).isPrefix
    exact h_step.trans (ih (scanner.step c))

/-- Without a limit every character is counted. -/
theorem consumed_foldl (h : scanner.limit = none) (cs : List Char) :
    (cs.foldl step scanner).consumed = scanner.consumed + (String.ofList cs).utf8ByteSize := by
  induction cs generalizing scanner with
  | nil => simp
  | cons c cs ih =>
    have h_step : (scanner.step c).consumed = scanner.consumed + c.utf8Size := by
      rw [step_of_room (full_of_unlimited h)]
    rw [List.foldl_cons, ih ((limit_step scanner c).trans h), h_step]
    simp [Nat.add_assoc]

/-! ### Capped scanners -/

/-- **Capping.** The scanner with a limit, and without the tokens that it has beyond it. -/
def capped (scanner : Scanner) (limit : Nat) : Scanner :=
  { scanner with limit := some limit, emitted := scanner.emitted.take limit }

theorem toList_emitted_capped (scanner : Scanner) (limit : Nat) :
    (scanner.capped limit).emitted.toList = scanner.emitted.toList.take limit := by
  simp [capped]

theorem full_capped (scanner : Scanner) (limit : Nat) :
    (scanner.capped limit).full = decide (limit ≤ scanner.emitted.size) := by
  have h_size : (scanner.emitted.take limit).size = min limit scanner.emitted.size := by simp
  show decide (limit ≤ (scanner.emitted.take limit).size) = decide (limit ≤ scanner.emitted.size)
  rw [h_size]
  exact decide_eq_decide.2 (by omega)

/-- What is emitted beyond the limit is cut off again. -/
theorem emit_capped (h : scanner.limit = none) (kind : Token.Kind) (content : String) :
    (scanner.capped limit).emit kind content = (scanner.emit kind content).capped limit := by
  have h_cut : ((scanner.capped limit).emit kind content).emitted =
      (scanner.emit kind content).emitted.take limit := by
    rw [emitted_emit (full_of_unlimited h), emit, full_capped]
    apply Array.toList_inj.1
    by_cases h_full : limit ≤ scanner.emitted.size
    · -- the capped scanner drops the token, and capping cuts it off
      rw [if_pos (decide_eq_true h_full), toList_emitted_capped]
      simp [h_full]
    · -- nothing has been cut off yet, and there is room for the token
      rw [if_neg (by simp [h_full])]
      have h_more : scanner.emitted.size + 1 ≤ limit := by omega
      simp [toList_emitted_capped, h_more, List.take_of_length_le, Nat.le_of_lt h_more]
  rw [emit_eq, h_cut, emit_eq scanner]
  rfl

/-- **A scanner without a limit and the capped one** go on in parallel. -/
theorem parallel_capped (limit : Nat) :
    Parallel fun a b => a.limit = none ∧ b = a.capped limit where
  agrees h := h.2 ▸ ⟨rfl, rfl, rfl, rfl⟩
  pending h _ := ⟨h.1, h.2 ▸ rfl⟩
  mode h _ := ⟨h.1, h.2 ▸ rfl⟩
  escaped h _ := ⟨h.1, h.2 ▸ rfl⟩
  emit h kind content := ⟨(limit_emit _ _ _).trans h.1, by rw [h.2, emit_capped h.1]⟩

/-- With room for a token, the step that the other scanner takes. -/
theorem step_capped (h : scanner.limit = none) (h_room : scanner.emitted.size < limit) (c : Char) :
    (scanner.capped limit).step c = (scanner.step c).capped limit := by
  have h_open : (scanner.capped limit).full = false := by
    rw [full_capped]
    exact decide_eq_false (Nat.not_le_of_lt h_room)
  have h_take : (scanner.capped limit).take c = (scanner.take c).capped limit :=
    ((parallel_capped limit).take ⟨h, rfl⟩ c).2
  rw [step_of_room h_open, step_of_room (full_of_unlimited h), h_take]
  rfl

/-! ### Where the limit is reached -/

/-- **The cut.** A text in two parts: the front is the shortest with which the scanner has emitted
as many tokens as the limit says, or all of the text if no front is long enough. -/
structure Cut (scanner : Scanner) (limit : Nat) (front rest : List Char) : Prop where
  short : ∀ before after, front = before ++ after → after ≠ [] →
    (before.foldl step scanner).emitted.size < limit
  reached : limit ≤ (front.foldl step scanner).emitted.size ∨ rest = []

namespace Cut

variable {front rest : List Char}

/-- The front is empty if there is no room, or nothing to read. -/
theorem nil (h : limit ≤ scanner.emitted.size ∨ rest = []) : scanner.Cut limit [] rest where
  short _ _ h_eq h_some := absurd (List.append_eq_nil_iff.1 h_eq.symm).2 h_some
  reached := h

/-- The front is longer by a character that is read before the limit is reached. -/
theorem cons {c : Char} (h_room : scanner.emitted.size < limit)
    (h : (scanner.step c).Cut limit front rest) : scanner.Cut limit (c :: front) rest where
  short before after h_eq h_some := by
    cases before with
    | nil => exact h_room
    | cons b before =>
      obtain ⟨rfl, h_front⟩ := List.cons.inj h_eq
      exact h.short before after h_front h_some
  reached := h.reached

/-- Every text has a cut. -/
theorem exists_eq_append (scanner : Scanner) (limit : Nat) (cs : List Char) :
    ∃ front rest, cs = front ++ rest ∧ scanner.Cut limit front rest := by
  induction cs generalizing scanner with
  | nil => exact ⟨[], [], rfl, .nil (.inr rfl)⟩
  | cons c cs ih =>
    by_cases h_full : limit ≤ scanner.emitted.size
    · exact ⟨[], c :: cs, rfl, .nil (.inl h_full)⟩
    · obtain ⟨front, rest, rfl, h_cut⟩ := ih (scanner.step c)
      exact ⟨c :: front, rest, rfl, h_cut.cons (Nat.lt_of_not_le h_full)⟩

/-- **The run with the limit** goes along the front and is the other one with its tokens capped. -/
theorem foldl_capped (h : scanner.Cut limit front rest) (h_limit : scanner.limit = none) :
    (front ++ rest).foldl step (scanner.capped limit) =
      (front.foldl step scanner).capped limit := by
  induction front generalizing scanner with
  | nil =>
    -- there is nothing to read, or no room
    rcases h.reached with h_full | rfl
    · exact foldl_step_of_full ((full_capped scanner limit).trans (decide_eq_true h_full)) rest
    · rfl
  | cons c front ih =>
    have h_room : scanner.emitted.size < limit := h.short [] (c :: front) rfl (by simp)
    -- the cut of a text without its first character, which both have read
    have h_rest : (scanner.step c).Cut limit front rest := by
      refine ⟨fun before after h_eq h_some => ?_, h.reached⟩
      exact h.short (c :: before) after (congrArg (c :: ·) h_eq) h_some
    rw [List.cons_append, List.foldl_cons, step_capped h_limit h_room, List.foldl_cons]
    exact ih h_rest ((limit_step scanner c).trans h_limit)

/-- What is read behind the front adds nothing to the first tokens. -/
theorem take_flush (h : scanner.Cut limit front rest) :
    ((front ++ rest).foldl step scanner).flush.emitted.toList.take limit =
      (front.foldl step scanner).flush.emitted.toList.take limit := by
  rcases h.reached with h_full | rfl
  · -- the first tokens are out, and stay in front of whatever comes
    let reader := front.foldl step scanner
    have h_first {tokens : List Token} (h_begins : reader.emitted.toList <+: tokens) :
        tokens.take limit = reader.emitted.toList.take limit := by
      obtain ⟨more, rfl⟩ := h_begins
      exact List.take_append_of_le_length h_full
    rw [List.foldl_append]
    calc ((rest.foldl step reader).flush.emitted.toList.take limit)
        = reader.emitted.toList.take limit :=
          h_first ((reader.prefix_foldl rest).trans (prefix_flush _))
      _ = reader.flush.emitted.toList.take limit := (h_first reader.prefix_flush).symm
  · rw [List.append_nil]

end Cut

/-! ### Reading a text with a limit -/

section Text

variable {delimiters : List Char} {text : String} {front rest : List Char}

/-- With a limit, what has been read in the end is the front of the text. -/
theorem Cut.append_eq (h : (new delimiters).Cut limit front rest) (h_limit : 0 < limit)
    (h_text : text.toList = front ++ rest) :
    (new delimiters limit).append text =
      ((new delimiters).append (String.ofList front)).capped limit := by
  have h_new : new delimiters limit = (new delimiters).capped limit := by
    simp [new, capped, Nat.ne_of_gt h_limit]
  rw [append_eq_foldl, h_text, h_new, append_eq_foldl, String.toList_ofList]
  exact h.foldl_capped rfl

theorem Cut.consumed_eq (h : (new delimiters).Cut limit front rest) (h_limit : 0 < limit)
    (h_text : text.toList = front ++ rest) :
    ((new delimiters limit).append text).consumed = (String.ofList front).utf8ByteSize := by
  have h_unlimited : (new delimiters).limit = none := rfl
  rw [h.append_eq h_limit h_text]
  show ((new delimiters).append (String.ofList front)).consumed = _
  rw [append_eq_foldl, String.toList_ofList, consumed_foldl h_unlimited]
  exact Nat.zero_add _

/-- The tokens of the front, with the one that is pending behind it, begin as those of the text. -/
theorem Cut.finish_eq (h : (new delimiters).Cut limit front rest) (h_limit : 0 < limit)
    (h_text : text.toList = front ++ rest) :
    ((new delimiters limit).append text).finish.1 =
      ((new delimiters).append text).finish.1.take limit := by
  let reader := (new delimiters).append (String.ofList front)
  have h_unlimited : reader.limit = none := limit_append _ _
  have h_flush : (reader.capped limit).flush = reader.flush.capped limit :=
    ((parallel_capped limit).flush ⟨h_unlimited, rfl⟩).2
  calc ((new delimiters limit).append text).finish.1
      = (reader.capped limit).flush.emitted.toList := by
        rw [h.append_eq h_limit h_text]
        rfl
    _ = reader.flush.emitted.toList.take limit := by rw [h_flush, toList_emitted_capped]
    _ = ((new delimiters).append text).flush.emitted.toList.take limit := by
        rw [append_eq_foldl (new delimiters) text, h_text, h.take_flush]
        simp only [reader, append_eq_foldl, String.toList_ofList]

/-- **A limit gives the first tokens.** For all delimiters, limits and texts:

* with the limit, the tokens are the first ones of those without it, up to that number;
* the bytes that are consumed are those of a front of the text. No shorter front makes a scanner
  without a limit emit as many tokens as the limit says; this front does, or it is all of the text;
* dropping the bytes that are consumed leaves the rest of the text behind that front. So the
  arguments of a command line, which is cut with the limit one, are a rest of the line. -/
theorem finish_limited (delimiters : List Char) {limit : Nat} (h : 0 < limit) (text : String) :
    ((new delimiters limit).append text).finish.1 =
        ((new delimiters).append text).finish.1.take limit ∧
      ∃ front rest : String, text = front ++ rest ∧
        ((new delimiters limit).append text).consumed = front.utf8ByteSize ∧
        (∀ before after : String, front = before ++ after → after ≠ "" →
          ((new delimiters).append before).emitted.size < limit) ∧
        (limit ≤ ((new delimiters).append front).emitted.size ∨ rest = "") ∧
        dropBytes? text.toList ((new delimiters limit).append text).consumed = some rest.toList ∧
        (delimiters = [] → limit = 1 →
          CommandLine.ofString? text =
            ((new []).append text).finish.1.head?.map fun word =>
              ⟨word.content, Text.trim rest⟩) := by
  obtain ⟨front, rest, h_text, h_cut⟩ := Cut.exists_eq_append (new delimiters) limit text.toList
  have h_tokens := h_cut.finish_eq h h_text
  have h_consumed := h_cut.consumed_eq h h_text
  have h_drop : dropBytes? text.toList ((new delimiters limit).append text).consumed =
      some rest := by
    rw [h_consumed, h_text]
    exact dropBytes?_append front rest
  refine ⟨h_tokens, String.ofList front, String.ofList rest, ?_, h_consumed, ?_, ?_, ?_, ?_⟩
  · rw [← String.ofList_append, ← h_text, String.ofList_toList]
  · intro before after h_front h_some
    have h_list : front = before.toList ++ after.toList := by
      rw [← String.toList_append, ← h_front, String.toList_ofList]
    rw [append_eq_foldl]
    exact h_cut.short _ _ h_list fun h_nil => h_some (String.toList_eq_nil_iff.1 h_nil)
  · rw [append_eq_foldl, String.toList_ofList, String.ofList_eq_empty_iff]
    exact h_cut.reached
  · rw [h_drop, String.toList_ofList]
  · rintro rfl rfl
    rw [CommandLine.ofString?_eq_map h_drop]
    show ((new [] 1).append text).finish.1.head?.map _ = _
    rw [h_tokens, List.head?_take, if_neg (by decide)]

/-- The delimiter ends a word with a character of two bytes and is a token itself: with a limit of
one token the word is all there is, the delimiter counts as read, and the rest is left. -/
theorem finish_limited_pair :
    0 < 1 ∧
      ((new ['=']).append "né=x y").finish.1.take 2 = [⟨.text, "né"⟩, ⟨.delimiter, "="⟩] ∧
      ((new ['='] 1).append "né=x y").finish.1 = [⟨.text, "né"⟩] ∧
      ∃ front rest : String, "né=x y" = front ++ rest ∧ front.utf8ByteSize = 4 ∧
        1 ≤ ((new ['=']).append front).emitted.size ∧
        dropBytes? "né=x y".toList 4 = some rest.toList := by
  have h_pos : 0 < 1 := by decide
  have h_two : ((new ['=']).append "né=x y").finish.1.take 2 =
      [⟨.text, "né"⟩, ⟨.delimiter, "="⟩] := by decide +kernel
  have h_bytes : ((new ['='] 1).append "né=x y").consumed = 4 := by decide +kernel
  obtain ⟨h_tokens, front, rest, h_text, h_consumed, -, h_reached, h_drop, -⟩ :=
    finish_limited ['='] h_pos "né=x y"
  rw [h_bytes] at h_consumed h_drop
  refine ⟨h_pos, h_two, ?_, front, rest, h_text, h_consumed.symm, ?_, h_drop⟩
  · calc ((new ['='] 1).append "né=x y").finish.1
        = (((new ['=']).append "né=x y").finish.1.take 2).take 1 := by
          rw [h_tokens, List.take_take]
          rfl
      _ = [⟨.text, "né"⟩] := by
          rw [h_two]
          rfl
  · -- the text has more bytes than were consumed
    refine h_reached.resolve_right fun h_rest => ?_
    rw [h_rest, String.append_empty] at h_text
    rw [← h_text] at h_consumed
    exact absurd h_consumed (by decide)

end Text

end PocketShell.Scanner
