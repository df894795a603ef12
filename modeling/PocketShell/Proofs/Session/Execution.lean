import PocketShell.Proofs.Session.Expansion
import PocketShell.Proofs.Token.QuotedWord

/-!
# What a line executes

Aliases only lead from one line to the next; whatever a line does, a built-in command does it.
`Session.Executes` says which command that is and what its arguments are, in terms of unfolding: the
line leads through different aliases to a line that names the command. A line executes one command
at most (`Session.Executes.unique`), since it unfolds in one way; and which one it is can be found
out by chasing the line with the chain of aliases at hand (`Session.executes_iff`).

A line whose first word names a built-in command executes this one, in any session
(`Session.invoke_builtin`). In a session without custom commands running a line is executing it:
either the line executes a command and the reply is the one of the command, or it executes none and
the session stays as it is (`Session.invoke_executes`). What every command keeps is therefore kept
by every line.
-/

namespace PocketShell

namespace Registry

variable {registry : Registry}

/-- **A line unfolds in one way.** -/
theorem Unfolds.unique {line last stop : String} {words all : List String}
    (h : registry.Unfolds line words last) (h_last : registry.expand? last = none)
    (h_all : registry.Unfolds line all stop) (h_stop : registry.expand? stop = none) :
    words = all ∧ last = stop := by
  induction h generalizing all with
  | refl =>
    cases h_all with
    | refl => exact ⟨rfl, rfl⟩
    | enter h_expand _ =>
      rw [h_last] at h_expand
      cases h_expand
  | enter h_expand _ ih =>
    cases h_all with
    | refl =>
      rw [h_stop] at h_expand
      cases h_expand
    | enter h_expand' h_rest =>
      rw [h_expand, Option.some.injEq, Prod.mk.injEq] at h_expand'
      obtain ⟨rfl, rfl⟩ := h_expand'
      obtain ⟨rfl, rfl⟩ := ih h_last h_rest
      exact ⟨rfl, rfl⟩

end Registry

/-! ### One command at most -/

namespace Session

/-- The built-in command that the first word of a line names, with the arguments behind it. -/
def named? (session : Session) (line : String) : Option (Builtin × String) :=
  match CommandLine.ofString? (Text.trim line) with
  | none => none
  | some ⟨word, args⟩ =>
    match session.registry.find? word with
    | some (.builtin command) => some (command, args)
    | _ => none

/-- **Executing a command.** The line leads through different aliases to a line whose first word
names the command, and these are the arguments there. -/
def Executes (session : Session) (line : String) (command : Builtin) (args : String) : Prop :=
  ∃ words last, session.registry.Unfolds line words last ∧ words.Nodup ∧
    session.named? last = some (command, args)

variable {session : Session} {line args : String} {command : Builtin}

theorem named?_eq_some_iff :
    session.named? line = some (command, args) ↔
      ∃ word, CommandLine.ofString? (Text.trim line) = some ⟨word, args⟩ ∧
        session.registry.find? word = some (.builtin command) := by
  unfold named?
  cases h_line : CommandLine.ofString? (Text.trim line) with
  | none => simp
  | some commandLine =>
    obtain ⟨word, rest⟩ := commandLine
    cases h_find : session.registry.find? word with
    | none => simp [h_find]
    | some found => cases found <;> simp [h_find, and_comm]

/-- A line that names a built-in command is not replaced. -/
theorem expand?_eq_none_of_named? (h : session.named? line = some (command, args)) :
    session.registry.expand? line = none := by
  obtain ⟨word, h_line, h_find⟩ := named?_eq_some_iff.1 h
  unfold Registry.expand?
  rw [h_line]
  simp [h_find, Command.replacement?]

/-- What a line does that is not replaced. -/
theorem settle_of_named? (h : session.named? line = some (command, args)) :
    session.settle line = command.run args session := by
  obtain ⟨word, h_line, h_find⟩ := named?_eq_some_iff.1 h
  unfold settle
  rw [h_line]
  simp only [h_find]

/-- A line that names a built-in command runs it, behind whatever chain of commands. -/
theorem dispatch_of_named? (h : session.named? line = some (command, args)) (depth : Nat)
    (chain : List String) :
    dispatch (depth + 1) chain line session = command.run args session := by
  obtain ⟨word, h_line, h_find⟩ := named?_eq_some_iff.1 h
  unfold dispatch
  rw [h_line]
  simp only [h_find]

theorem invoke_of_named? (h : session.named? line = some (command, args)) :
    session.invoke line = command.run args session := by
  -- there is always room for the line itself
  obtain ⟨depth, h_depth⟩ := @exists_maxDepth_eq session 0 (Nat.zero_le _)
  rw [invoke, h_depth, Nat.add_zero]
  exact dispatch_of_named? h depth []

/-- A line that begins with the name of a built-in command runs it. -/
theorem invoke_builtin
    (h_find : session.registry.find? command.name = some (.builtin command)) (args : String) :
    session.invoke (command.name ++ " " ++ args) = command.run (Text.trim args) session := by
  have h_some : command.name ≠ "" := by cases command <;> decide
  have h_plain : ∀ c ∈ command.name.toList, Scanner.Mode.plain.Keeps [] c := by
    cases command <;> exact List.forall_iff_forall_mem.1 (by decide)
  have h_line := CommandLine.ofString?_trim_plain h_some h_plain args
  exact invoke_of_named? (named?_eq_some_iff.2 ⟨command.name, h_line, h_find⟩)

theorem settle_of_named?_eq_none (h : session.named? line = none) :
    (session.settle line).session = session := by
  unfold settle
  cases h_line : CommandLine.ofString? (Text.trim line) with
  | none => rfl
  | some commandLine =>
    obtain ⟨word, args⟩ := commandLine
    dsimp only
    split
    · next command h_find =>
      rw [named?_eq_some_iff.2 ⟨word, h_line, h_find⟩] at h
      cases h
    · rfl

/-- **A line executes one command at most.** -/
theorem Executes.unique {command' : Builtin} {args' : String}
    (h : session.Executes line command args) (h' : session.Executes line command' args') :
    command = command' ∧ args = args' := by
  obtain ⟨words, last, h_unfolds, -, h_named⟩ := h
  obtain ⟨words', last', h_unfolds', -, h_named'⟩ := h'
  obtain ⟨-, rfl⟩ := h_unfolds.unique (expand?_eq_none_of_named? h_named) h_unfolds'
    (expand?_eq_none_of_named? h_named')
  rw [h_named, Option.some.injEq, Prod.mk.injEq] at h_named'
  exact h_named'

/-! ### Looking for the command -/

/-- **Chasing** a line through steps that have names, up to a depth. A name may not come back, and
where there is no step it is seen what is found. -/
def chase {α : Type} (next? : String → Option (String × String)) (found? : String → Option α) :
    Nat → List String → String → Option α
  | 0, _, _ => none
  | depth + 1, chain, line =>
    match next? line with
    | none => found? line
    | some (word, next) =>
      if word ∈ chain then none else chase next? found? depth (chain ++ [word]) next

/-- **The command that a line executes,** with its arguments, if there is one. -/
def executed? (session : Session) (line : String) : Option (Builtin × String) :=
  chase session.registry.expand? session.named? (session.registry.size + 1) [] line

theorem chase_eq_some_iff {depth : Nat} {chain : List String} (h_chain : chain.Nodup) :
    chase session.registry.expand? session.named? depth chain line = some (command, args) ↔
      ∃ words last, session.registry.Unfolds line words last ∧ (chain ++ words).Nodup ∧
        words.length < depth ∧ session.named? last = some (command, args) := by
  induction depth generalizing chain line with
  | zero =>
    simp [chase]
  | succ depth ih =>
    rw [chase]
    cases h_expand : session.registry.expand? line with
    | none =>
      constructor
      · intro h_named
        exact ⟨[], line, .refl, by rwa [List.append_nil], Nat.succ_pos depth, h_named⟩
      · rintro ⟨words, last, h_unfolds, -, -, h_named⟩
        cases h_unfolds with
        | refl => exact h_named
        | enter h_step _ =>
          rw [h_expand] at h_step
          cases h_step
    | some step =>
      obtain ⟨word, next⟩ := step
      -- every way to a command begins with this step
      have h_first : (∃ words last, session.registry.Unfolds line words last ∧
            (chain ++ words).Nodup ∧ words.length < depth + 1 ∧
            session.named? last = some (command, args)) ↔
          ∃ words last, session.registry.Unfolds next words last ∧
            (chain ++ [word] ++ words).Nodup ∧ words.length < depth ∧
            session.named? last = some (command, args) := by
        constructor
        · rintro ⟨words, last, h_unfolds, h_nodup, h_length, h_named⟩
          cases h_unfolds with
          | refl =>
            rw [expand?_eq_none_of_named? h_named] at h_expand
            cases h_expand
          | @enter _ _ _ _ words h_step h_rest =>
            rw [h_expand, Option.some.injEq, Prod.mk.injEq] at h_step
            obtain ⟨rfl, rfl⟩ := h_step
            refine ⟨words, last, h_rest, ?_, Nat.lt_of_succ_lt_succ h_length, h_named⟩
            rwa [List.append_assoc, List.singleton_append]
        · rintro ⟨words, last, h_unfolds, h_nodup, h_length, h_named⟩
          refine ⟨word :: words, last, .enter h_expand h_unfolds, ?_, Nat.succ_lt_succ h_length,
            h_named⟩
          rwa [List.append_assoc, List.singleton_append] at h_nodup
      rw [h_first]
      dsimp only
      split
      · next h_old =>
        -- an alias that is on the chain is entered by no way
        refine iff_of_false (fun h_none => by cases h_none) ?_
        rintro ⟨words, last, -, h_nodup, -, -⟩
        have h_chain' := (List.nodup_append.1 h_nodup).1
        exact absurd rfl ((List.nodup_append.1 h_chain').2.2 word h_old word (by simp))
      · next h_new =>
        refine ih ?_
        rw [← List.concat_eq_append]
        exact h_chain.concat h_new

/-- **Executing is decided by chasing the line,** since there is depth for all aliases. -/
theorem executes_iff :
    session.Executes line command args ↔ session.executed? line = some (command, args) := by
  rw [executed?, chase_eq_some_iff List.nodup_nil]
  constructor
  · rintro ⟨words, last, h_unfolds, h_nodup, h_named⟩
    exact ⟨words, last, h_unfolds, h_nodup, Nat.lt_succ_of_le (h_unfolds.length_le h_nodup),
      h_named⟩
  · rintro ⟨words, last, h_unfolds, h_nodup, -, h_named⟩
    exact ⟨words, last, h_unfolds, h_nodup, h_named⟩

instance : Decidable (session.Executes line command args) :=
  decidable_of_iff _ executes_iff.symm

/-! ### Running and executing -/

/-- **Running a line is executing it.** The reply is the one of the command that the line executes;
if it executes none, the session stays as it is. -/
theorem invoke_executes (h_plain : session.registry.IsPlain) (line : String) :
    (∃ command args, session.Executes line command args ∧
        session.invoke line = command.run args session) ∨
      ((∀ command args, ¬ session.Executes line command args) ∧
        (session.invoke line).session = session) := by
  obtain ⟨words, last, h_unfolds, h_nodup, h_outcome⟩ := session.invoke_cases h_plain line
  rcases h_outcome with ⟨h_last, h_settle⟩ | ⟨word, next, h_next, h_old, h_cyclic⟩
  · rw [h_settle]
    cases h_named : session.named? last with
    | some found =>
      obtain ⟨command, args⟩ := found
      exact .inl ⟨command, args, ⟨words, last, h_unfolds, h_nodup, h_named⟩,
        settle_of_named? h_named⟩
    | none =>
      -- every execution ends at the line that is settled
      refine .inr ⟨?_, settle_of_named?_eq_none h_named⟩
      rintro command args ⟨words', last', h_unfolds', -, h_named'⟩
      obtain ⟨-, rfl⟩ := h_unfolds.unique h_last h_unfolds' (expand?_eq_none_of_named? h_named')
      rw [h_named] at h_named'
      cases h_named'
  · -- what is refused would enter an alias twice
    refine .inr ⟨?_, by rw [h_cyclic]; rfl⟩
    rintro command args ⟨words', last', h_unfolds', h_nodup', h_named⟩
    have h_prefix : words ++ [word] <+: words' :=
      (h_unfolds.snoc h_next).isPrefix h_unfolds' (expand?_eq_none_of_named? h_named)
    have h_twice := h_nodup'.sublist h_prefix.sublist
    exact (List.nodup_append.1 h_twice).2.2 word h_old word (List.mem_singleton_self word) rfl

theorem Executes.invoke_eq (h : session.Executes line command args)
    (h_plain : session.registry.IsPlain) : session.invoke line = command.run args session := by
  rcases invoke_executes h_plain line with ⟨command', args', h', h_invoke⟩ | ⟨h_none, -⟩
  · obtain ⟨rfl, rfl⟩ := h.unique h'
    exact h_invoke
  · exact absurd h (h_none command args)

end Session

end PocketShell
