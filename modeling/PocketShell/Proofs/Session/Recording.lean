import PocketShell.Proofs.History
import PocketShell.Proofs.Session.Execution
import PocketShell.Proofs.Session.Limit
import PocketShell.Proofs.Session.Registering

/-!
# What is recorded

A line is recorded after it was run, so it meets the history that its own command has left, and the
limit that its own command has left. This is one rule, `Session.entries_enter`, for every line that
is not blank, whether it succeeds or not; a blank line does nothing at all
(`Session.enter_of_blank`). Of all commands only `history --clear` touches the history itself
(`Builtin.history_run_eq`, `Session.entries_invoke`).

Over a run the limit may be raised and lowered many times. What there is to be remembered does not
depend on it: `Session.recorded` collects the lines since the history was cleared last, behind those
that were there before the run. The history is always an end of that
(`Session.entries_suffix_recorded`): every line goes to the end of both, and a limit only cuts off
the front.
-/

namespace PocketShell

/-- **Clearing** is all that commands do to the history. -/
theorem Builtin.history_run_eq (command : Builtin) (args : String) (session : Session) :
    (command.run args session).session.history =
      if command = .history ∧ args = "--clear" then {} else session.history := by
  cases command with
  | history =>
    rw [run]
    unfold Session.showHistory
    by_cases h_clear : args = "--clear"
    · rw [if_pos h_clear, if_pos ⟨rfl, h_clear⟩]
    · rw [if_neg h_clear, if_neg fun h => h_clear h.2]
      rfl
  | _ =>
    rw [history_run args session (by decide), if_neg]
    rintro ⟨h_command, -⟩
    cases h_command

namespace Session

variable {session : Session} {line : String}

/-! ### One line -/

/-- There is nothing to execute in the empty line. -/
theorem Executes.ne_empty {command : Builtin} {args : String}
    (h : session.Executes line command args) : line ≠ "" := by
  rintro rfl
  obtain ⟨words, last, h_unfolds, -, h_named⟩ := h
  have h_expand : session.registry.expand? "" = none := rfl
  cases h_unfolds with
  | refl =>
    have h_none : session.named? "" = none := rfl
    rw [h_none] at h_named
    cases h_named
  | enter h_step _ =>
    rw [h_expand] at h_step
    cases h_step

/-- **What a line leaves of the history** before it is recorded: everything, unless it clears the
history. -/
theorem entries_invoke (h_plain : session.registry.IsPlain) (line : String) :
    (session.invoke line).session.history.entries =
      if session.Executes line .history "--clear" then [] else session.history.entries := by
  rcases invoke_executes h_plain line with ⟨command, args, h_executes, h_invoke⟩ | ⟨h_none, h_same⟩
  · rw [h_invoke, Builtin.history_run_eq]
    by_cases h_clear : command = .history ∧ args = "--clear"
    · obtain ⟨rfl, rfl⟩ := h_clear
      rw [if_pos ⟨rfl, rfl⟩, if_pos h_executes]
    · rw [if_neg h_clear, if_neg fun h => h_clear (h_executes.unique h)]
  · rw [h_same, if_neg (h_none _ _)]

theorem enter_of_blank (session : Session) (h : Text.trim line = "") :
    session.enter line = .say session [] := by
  rw [enter, h]
  rfl

theorem enter_eq (session : Session) (h : Text.trim line ≠ "") :
    session.enter line = { session.invoke (Text.trim line) with
      session := (session.invoke (Text.trim line)).session.record (Text.trim line) } := by
  have h_some : ¬ (Text.trim line).isEmpty = true := by simpa using h
  rw [enter, if_neg h_some]

/-- **Recording a line** behind what it has left, under the limit that it has left. -/
theorem entries_enter (session : Session) (h : Text.trim line ≠ "") :
    (session.enter line).session.history.entries =
      History.newest (session.invoke (Text.trim line)).session.historyLimit
        ((session.invoke (Text.trim line)).session.history.entries ++ [Text.trim line]) := by
  rw [enter_eq session h]
  exact History.entries_push _ _ _

/-- **Listing the history** shows it as it was before the line. -/
theorem lines_enter_of_history (h_plain : session.registry.IsPlain) {args : String}
    (h : session.Executes (Text.trim line) .history args) (h_args : args ≠ "--clear") :
    (session.enter line).lines =
      session.history.entries.mapIdx fun i entry => .out (toString i ++ " " ++ entry) := by
  rw [enter_eq session h.ne_empty]
  dsimp only
  rw [h.invoke_eq h_plain, Builtin.run, showHistory, if_neg h_args]
  rfl

/-! ### Many lines -/

theorem after_enterAll_append (session : Session) (front back : List String) :
    session.after (session.enterAll (front ++ back)) =
      (session.after (session.enterAll front)).after
        ((session.after (session.enterAll front)).enterAll back) := by
  induction front generalizing session with
  | nil => rfl
  | cons line front ih => rw [List.cons_append, after_enterAll_cons, after_enterAll_cons, ih]

/-- Blank lines leave no trace. -/
theorem after_enterAll_of_blank (session : Session) {lines : List String}
    (h : ∀ line ∈ lines, Text.trim line = "") :
    session.after (session.enterAll lines) = session := by
  induction lines with
  | nil => rfl
  | cons line lines ih =>
    rw [after_enterAll_cons, enter_of_blank session (h line List.mem_cons_self)]
    exact ih fun other h_mem => h other (List.mem_cons_of_mem _ h_mem)

/-- **What there is to be remembered** after some lines, if there were no limit: the trimmed lines
since the history was cleared last, and what was there before if it was not cleared. -/
def recorded (session : Session) (before : List String) : List String → List String
  | [] => before
  | line :: lines =>
    let next := (session.enter line).session
    if Text.trim line = "" then next.recorded before lines
    else
      let kept := if session.Executes (Text.trim line) .history "--clear" then [] else before
      next.recorded (kept ++ [Text.trim line]) lines

/-- **The history is an end of what there is to be remembered.** -/
theorem entries_suffix_recorded (h_plain : session.registry.IsPlain) {before : List String}
    (h_before : session.history.entries <:+ before) (lines : List String) :
    (session.after (session.enterAll lines)).history.entries <:+ session.recorded before lines := by
  -- the invariant is the suffix itself, whatever the limit has become
  induction lines generalizing session before with
  | nil => exact h_before
  | cons line lines ih =>
    rw [after_enterAll_cons, recorded]
    have h_next := (session.enter_gains line).isPlain h_plain
    by_cases h_blank : Text.trim line = ""
    · rw [if_pos h_blank]
      refine ih h_next ?_
      rw [enter_of_blank session h_blank]
      exact h_before
    · rw [if_neg h_blank]
      refine ih h_next ?_
      rw [entries_enter session h_blank, entries_invoke h_plain]
      refine (History.newest_suffix _ _).trans ?_
      split
      · exact List.suffix_refl _
      · obtain ⟨front, rfl⟩ := h_before
        exact ⟨front, (List.append_assoc front _ _).symm⟩

/-- **The history over a run.** In a session of built-in commands and aliases, after any lines have
been entered, whether they failed, cleared the history or changed its limit:

* the history is an end of what there is to be remembered;
* it is no longer than the limit that was left by the line recorded last;
* a blank line that comes next does nothing;
* any other line that comes next leaves the newest entries of the history and the line, trimmed; of
  the line alone, if it clears the history. There are as many as the limit allows that the line has
  left;
* a line that lists the history lists it as it was before the line;
* the limit, here as in every session, is what the text of its variable stands for, without the
  blanks around it: none for a number below zero, the integral part of any other number, and zero
  for what is no number. -/
theorem history_of_run (h_plain : session.registry.IsPlain) (lines : List String) :
    let now := session.after (session.enterAll lines)
    now.history.entries <:+ session.recorded session.history.entries lines ∧
      (∀ front line blanks, lines = front ++ line :: blanks → Text.trim line ≠ "" →
        (∀ blank ∈ blanks, Text.trim blank = "") →
        ∀ limit ∈ ((session.after (session.enterAll front)).invoke
          (Text.trim line)).session.historyLimit, now.history.size ≤ limit) ∧
      (∀ line, Text.trim line = "" → now.enter line = .say now []) ∧
      (∀ line, Text.trim line ≠ "" → (now.enter line).session.history.entries =
        History.newest (now.invoke (Text.trim line)).session.historyLimit
          ((if now.Executes (Text.trim line) .history "--clear" then []
            else now.history.entries) ++ [Text.trim line])) ∧
      (∀ line args, now.Executes (Text.trim line) .history args → args ≠ "--clear" →
        (now.enter line).lines =
          now.history.entries.mapIdx fun i entry => .out (toString i ++ " " ++ entry)) ∧
      ∀ (reached : Session) limit, reached.historyLimit = limit ↔
        History.IsLimit (Text.trim (reached.env.get Environment.historyMaxName)).toList limit := by
  intro now
  have h_now : now.registry.IsPlain := (session.enterAll_gains lines).isPlain h_plain
  refine ⟨entries_suffix_recorded h_plain (List.suffix_refl _) lines, ?_,
    fun line h_blank => enter_of_blank now h_blank, fun line h_some => ?_,
    fun line args h_list h_args => lines_enter_of_history h_now h_list h_args,
    historyLimit_eq_iff⟩
  · rintro front line blanks rfl h_some h_blanks limit h_limit
    -- after the line that was recorded last, nothing has changed
    have h_last : now = ((session.after (session.enterAll front)).enter line).session := by
      show session.after _ = _
      rw [after_enterAll_append, after_enterAll_cons, after_enterAll_of_blank _ h_blanks]
    rw [h_last, History.size, entries_enter _ h_some]
    exact History.length_newest_le h_limit _
  · rw [entries_enter now h_some, entries_invoke h_now]

/-- An alias clears the history, and its own line is what is remembered from then on. -/
theorem history_of_run_clear :
    (withAlias "h" "history").registry.IsPlain ∧
      let now := (withAlias "h" "history").after ((withAlias "h" "history").enterAll
        ["set HISTORY_MAX=5", "nowhere", "h --clear", " "])
      now.historyLimit = some 5 ∧
        (now.enter " echo b ").session.history.entries = ["h --clear", "echo b"] := by
  have h_plain := withAlias_isPlain "h" "history"
  obtain ⟨-, -, -, h_enter, -, h_limit⟩ := history_of_run h_plain
    ["set HISTORY_MAX=5", "nowhere", "h --clear", " "]
  refine ⟨h_plain, (h_limit _ _).2 ?_, ?_⟩
  · have h_text : (Text.trim (((withAlias "h" "history").after ((withAlias "h" "history").enterAll
        ["set HISTORY_MAX=5", "nowhere", "h --clear", " "])).env.get
          Environment.historyMaxName)).toList = Decimal.digits 5 := by
      decide +kernel
    exact h_text ▸ History.isLimit_digits (by decide)
  · rw [h_enter " echo b " (by decide +kernel)]
    decide +kernel

end Session

end PocketShell
