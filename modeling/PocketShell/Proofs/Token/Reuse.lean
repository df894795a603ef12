import PocketShell.Proofs.Token.Reading

/-!
# Scanners that are used again

A scanner reads a text in chunks, of whatever lengths they happen to be, and when it has finished it
goes on with the next text. A chunk may end inside an escape, a quoted span or a run of blanks, or
behind the character at which the scanner was full. None of this can be told from what the scanner
gives: every time it finishes, it gives what a new scanner gives that has read the same text at
once, and it has counted the same bytes (`Scanner.answers_new`).

Two facts carry this, one for each `Scanner.Request`:

* reading two chunks one after the other is reading them at once (`Scanner.append_append`), because
  reading is taking one step for each character and a full scanner takes none;
* finishing leaves a new scanner (`Scanner.finish_snd`), because ending a token clears whatever a
  character may have set but the tokens and the count, and these are cleared by finishing itself.
-/

namespace PocketShell.Scanner

/-- **Requests** to a scanner. -/
inductive Request where
  | append (chunk : String)
  | finish

/-- **Answers** of a scanner that is to finish. -/
structure Answer where
  tokens : List Token
  /-- The number of bytes that the scanner has consumed when it is told to finish. -/
  consumed : Nat
  deriving DecidableEq, Repr

/-- What a scanner answers if it is to finish now. -/
def answer (scanner : Scanner) : Answer where
  tokens := scanner.finish.1
  consumed := scanner.consumed

/-- **Serving requests** one after the other, with one scanner. There is an answer for each request
to finish. -/
def answers (scanner : Scanner) : List Request → List Answer
  | [] => []
  | .append chunk :: requests => (scanner.append chunk).answers requests
  | .finish :: requests => scanner.answer :: scanner.finish.2.answers requests

/-- **The texts that requests are about,** one for each request to finish: all chunks since the
request to finish before it, one behind the other. The chunks so far are given as `front`. -/
def Request.texts (front : String) : List Request → List String
  | [] => []
  | .append chunk :: requests => texts (front ++ chunk) requests
  | .finish :: requests => front :: texts "" requests

/-- The scanner as it was when it was new. -/
def fresh (scanner : Scanner) : Scanner where
  delimiters := scanner.delimiters
  limit := scanner.limit

/-! ### Finishing -/

/-- **Finishing leaves a new scanner.** -/
theorem finish_snd (scanner : Scanner) : scanner.finish.2 = scanner.fresh := by
  have h_clear : scanner.finish.2 = { scanner.flush with emitted := #[], consumed := 0 } := rfl
  -- what is pending, the mode and the escape are cleared with the last token
  rw [h_clear, flush_eq]
  rfl

/-- A scanner that has read something was the same when it was new. -/
theorem fresh_append (scanner : Scanner) (text : String) :
    (scanner.append text).fresh = scanner.fresh := by
  rw [fresh, fresh, delimiters_append, limit_append]

/-! ### Serving -/

/-- **A scanner that has read `front`** answers as if it had been told to read each text at once. -/
theorem answers_append (delimiters : List Char) (limit : Nat) (requests : List Request)
    (front : String) :
    ((new delimiters limit).append front).answers requests =
      (Request.texts front requests).map fun text =>
        ((new delimiters limit).append text).answer := by
  induction requests generalizing front with
  | nil => rfl
  | cons request requests ih =>
    cases request with
    | append chunk =>
      rw [answers, ← append_append]
      exact ih (front ++ chunk)
    | finish =>
      -- the scanner is new again, that is, it has read nothing yet
      have h_new : ((new delimiters limit).append front).finish.2 =
          (new delimiters limit).append "" := by
        rw [finish_snd, fresh_append]
        rfl
      rw [answers, h_new, ih ""]
      rfl

/-- **Chunks and reuse do not matter.** Whatever a scanner was told to read and to finish before, in
whatever chunks: each time it finishes, its tokens and the bytes that it has consumed are those of a
new scanner that has read all the chunks since the last time at once. -/
theorem answers_new (delimiters : List Char) (limit : Nat) (requests : List Request) :
    (new delimiters limit).answers requests =
      (Request.texts "" requests).map fun text => ((new delimiters limit).append text).answer :=
  answers_append delimiters limit requests ""

/-- A chunk ends behind a backslash, and the next text begins with a quote. -/
example :
    (new []).answers [.append "a\\", .append " b", .finish, .append "\"c d", .finish, .finish] =
      [⟨[⟨.text, "a b"⟩], 4⟩, ⟨[⟨.doubleQuoted, "c d"⟩], 4⟩, ⟨[], 0⟩] := by
  decide +kernel

end PocketShell.Scanner
