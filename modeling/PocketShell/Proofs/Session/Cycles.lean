import PocketShell.Proofs.Session.Invoke
import PocketShell.Proofs.Token.CommandWord

/-!
# Aliases that are refused

A line is refused when an alias comes back that was entered before. One would refuse only what goes
on for ever, and every line that goes on for ever is refused (`Session.refuses_of_not_stops`). But a
line that comes to an end may be refused too: an alias may come back with fewer arguments than
before, if its text leaves the next command word to the arguments (`Session.refuses_and_stops`).

`Session.refuses_iff` says exactly what happens. A line is refused if and only if unfolding it
enters an alias twice. Refusing is therefore the same as going on for ever unless the line enters an
alias twice and stops. No line does so if the text of every alias determines the command word on its
own, which `Registry.FixesWord` says: then an alias that comes back is followed by the same aliases
again.
-/

namespace PocketShell

namespace Registry

/-- Unfolding the line enters an alias twice. -/
def EntersTwice (registry : Registry) (line : String) : Prop :=
  ∃ words last, registry.Unfolds line words last ∧ ¬ words.Nodup

/-- **The text of an alias fixes the command word** that comes next, whatever the arguments are. -/
def FixesWord (text : String) : Prop :=
  ∃ word, ∀ args,
    (CommandLine.ofString? (Text.trim (text ++ " " ++ args))).map CommandLine.word = some word

theorem fixesWord_of_ownWord? {text own : String} (h : CommandLine.ownWord? text = some own) :
    FixesWord text :=
  ⟨own, CommandLine.word_of_ownWord? h⟩

variable {registry : Registry}

theorem Unfolds.exists_middle {line last : String} {front back : List String}
    (h : registry.Unfolds line (front ++ back) last) :
    ∃ middle, registry.Unfolds line front middle ∧ registry.Unfolds middle back last := by
  induction front generalizing line with
  | nil => exact ⟨line, .refl, h⟩
  | cons word front ih =>
    cases h with
    | enter h_expand h_rest =>
      obtain ⟨middle, h_front, h_back⟩ := ih h_rest
      exact ⟨middle, .enter h_expand h_front, h_back⟩

/-- What comes after a text that fixes the command word is the same alias, or none. -/
theorem map_expand?_of_fixesWord (registry : Registry) {text : String} (h : FixesWord text)
    (a b : String) :
    (registry.expand? (text ++ " " ++ a)).map Prod.fst =
      (registry.expand? (text ++ " " ++ b)).map Prod.fst := by
  obtain ⟨word, h_word⟩ := h
  have h_first : ∀ args, (registry.expand? (text ++ " " ++ args)).map Prod.fst =
      ((registry.find? word).bind Command.replacement?).map fun _ => word := by
    intro args
    obtain ⟨⟨first, rest⟩, h_line, rfl⟩ := Option.map_eq_some_iff.1 (h_word args)
    unfold expand?
    rw [h_line]
    simp [Option.map_map, Function.comp_def]
  rw [h_first a, h_first b]

/-- **Lines with the same first alias enter the same aliases,** up to the end, if texts fix command
words. -/
theorem Unfolds.eq_of_first
    (h_fixed : ∀ name text, registry.find? name = some (.aliasOf text) → FixesWord text)
    {line line' stop stop' : String} {words words' : List String}
    (h_first : (registry.expand? line).map Prod.fst = (registry.expand? line').map Prod.fst)
    (h : registry.Unfolds line words stop) (h_stop : registry.expand? stop = none)
    (h' : registry.Unfolds line' words' stop') (h_stop' : registry.expand? stop' = none) :
    words = words' := by
  induction h generalizing line' words' with
  | refl =>
    rw [h_stop] at h_first
    cases h' with
    | refl => rfl
    | enter h_expand' _ =>
      rw [h_expand'] at h_first
      cases h_first
  | @enter line word next stop words h_expand _ ih =>
    cases h' with
    | refl =>
      rw [h_expand, h_stop'] at h_first
      cases h_first
    | @enter line' word' next' stop' words' h_expand' h_rest' =>
      obtain rfl : word = word' := by simpa [h_expand, h_expand'] using h_first
      obtain ⟨text, args, -, h_find, rfl⟩ := expand?_eq_some_iff.1 h_expand
      -- both lines go on with the same text, and only the arguments behind it may differ
      obtain ⟨text', args', -, h_find', rfl⟩ := expand?_eq_some_iff.1 h_expand'
      obtain rfl : text = text' := by simpa [h_find] using h_find'
      have h_next := map_expand?_of_fixesWord registry (h_fixed word text h_find) args args'
      exact congrArg (word :: ·) (ih h_next h_stop h_rest')

/-- If texts fix command words, a line that stops enters different aliases. -/
theorem Unfolds.nodup_of_fixesWord
    (h_fixed : ∀ name text, registry.find? name = some (.aliasOf text) → FixesWord text)
    {line stop : String} {words : List String} (h : registry.Unfolds line words stop)
    (h_stop : registry.expand? stop = none) : words.Nodup := by
  induction h with
  | refl => exact List.nodup_nil
  | @enter line word next stop words h_expand h_rest ih =>
    refine List.nodup_cons.2 ⟨fun h_mem => ?_, ih h_stop⟩
    -- the alias would be followed by all that follows it, and once more by the end of that
    obtain ⟨front, back, rfl⟩ := List.append_of_mem h_mem
    obtain ⟨middle, -, h_again⟩ := h_rest.exists_middle
    have h_first :
        (registry.expand? line).map Prod.fst = (registry.expand? middle).map Prod.fst := by
      cases h_again with
      | enter h_expand' _ => rw [h_expand, h_expand']; rfl
    have h_eq := Unfolds.eq_of_first h_fixed h_first (.enter h_expand h_rest) h_stop h_again h_stop
    have h_length := congrArg List.length h_eq
    simp at h_length
    omega

end Registry

namespace Session

variable {session : Session}

/-- **Refusing.** The line ends in the error of an alias that came back. -/
def Refuses (session : Session) (line : String) : Prop :=
  ∃ chain, (session.invoke line).result = .error (.cyclicAlias chain)

/-- **A line is refused if and only if it enters an alias twice.** -/
theorem refuses_iff_entersTwice (h_plain : session.registry.IsPlain) (line : String) :
    session.Refuses line ↔ session.registry.EntersTwice line := by
  obtain ⟨words, last, h_unfolds, h_nodup, h_end⟩ := session.invoke_cases h_plain line
  rcases h_end with ⟨h_stop, h_settle⟩ | ⟨word, next, h_expand, h_old, h_run⟩
  · refine iff_of_false ?_ ?_
    · rintro ⟨chain, h_error⟩
      rw [h_settle] at h_error
      exact Bool.noConfusion (settle_not_nesting h_error)
    · -- whatever is entered, is entered before the line that is settled
      rintro ⟨words', last', h_unfolds', h_twice⟩
      exact h_twice (h_nodup.sublist (h_unfolds'.isPrefix h_unfolds h_stop).sublist)
  · refine iff_of_true ⟨words ++ [word], by rw [h_run]; rfl⟩ ?_
    refine ⟨words ++ [word], next, h_unfolds.snoc h_expand, fun h_new => ?_⟩
    exact (List.nodup_append.1 h_new).2.2 word h_old word List.mem_cons_self rfl

/-- **What goes on for ever is refused.** -/
theorem refuses_of_not_stops (h_plain : session.registry.IsPlain) {line : String}
    (h_endless : ¬ session.registry.Stops line) : session.Refuses line := by
  obtain ⟨words, last, h_unfolds, -, ⟨h_stop, -⟩ | ⟨word, next, -, -, h_run⟩⟩ :=
    session.invoke_cases h_plain line
  · exact absurd ⟨words, last, h_unfolds, h_stop⟩ h_endless
  · exact ⟨words ++ [word], by rw [h_run]; rfl⟩

/-- **When lines are refused.** A line is refused if and only if it enters an alias twice. Refusing
is the same as going on for ever except for a line that enters an alias twice and stops; and it is
the same for every line if the texts of aliases fix command words. -/
theorem refuses_iff (h_plain : session.registry.IsPlain) (line : String) :
    (session.Refuses line ↔ session.registry.EntersTwice line) ∧
      ((session.Refuses line ↔ ¬ session.registry.Stops line) ↔
        ¬ (session.registry.EntersTwice line ∧ session.registry.Stops line)) ∧
      ((∀ name text, session.registry.find? name = some (.aliasOf text) →
          Registry.FixesWord text) →
        (session.Refuses line ↔ ¬ session.registry.Stops line)) := by
  have h_twice := refuses_iff_entersTwice h_plain line
  have h_endless := @refuses_of_not_stops session h_plain line
  refine ⟨h_twice, ⟨?_, ?_⟩, fun h_fixed => ⟨?_, h_endless⟩⟩
  · rintro h_iff ⟨h_enters, h_stops⟩
    exact h_iff.1 (h_twice.2 h_enters) h_stops
  · intro h_never
    exact ⟨fun h_refused h_stops => h_never ⟨h_twice.1 h_refused, h_stops⟩, h_endless⟩
  · -- an alias that came back would be among the different ones up to the stop
    rintro h_refused ⟨words, last, h_unfolds, h_stop⟩
    obtain ⟨words', last', h_unfolds', h_again⟩ := h_twice.1 h_refused
    have h_nodup := h_unfolds.nodup_of_fixesWord h_fixed h_stop
    exact h_again (h_nodup.sublist (h_unfolds'.isPrefix h_unfolds h_stop).sublist)

/-- An alias for itself goes on for ever. -/
theorem refuses_iff_again :
    (withAlias "again" "again").registry.IsPlain ∧
      (∀ name text, (withAlias "again" "again").registry.find? name = some (.aliasOf text) →
        Registry.FixesWord text) ∧
      (withAlias "again" "again").Refuses "again" ∧
      ¬ (withAlias "again" "again").registry.Stops "again" := by
  have h_plain := withAlias_isPlain "again" "again"
  have h_fixed : ∀ name text,
      (withAlias "again" "again").registry.find? name = some (.aliasOf text) →
        Registry.FixesWord text := by
    intro name text h_find
    have h_insert := OrderedMap.find?_insert Registry.standard.commands "again" name
      (.aliasOf "again")
    rw [show (withAlias "again" "again").registry.find? name = _ from h_insert] at h_find
    split at h_find
    · cases h_find
      have h_own : CommandLine.ownWord? "again" = some "again" := by rfl
      exact Registry.fixesWord_of_ownWord? h_own
    · obtain ⟨builtin, h_eq⟩ := Registry.standard_holdsBuiltins name _ h_find
      cases h_eq
  have h_refused : (withAlias "again" "again").Refuses "again" := ⟨["again", "again"], by rfl⟩
  exact ⟨h_plain, h_fixed, h_refused, ((refuses_iff h_plain "again").2.2 h_fixed).1 h_refused⟩

/-- **A line that comes to an end and is refused.** The text of the alias is blank, so each time it
is entered it gives way to its own arguments; the second time, `echo hi` is all that is left. -/
theorem refuses_and_stops :
    (withAlias "a" " ").Refuses "a a echo hi" ∧
      (withAlias "a" " ").registry.Stops "a a echo hi" := by
  have h_first :
      (withAlias "a" " ").registry.expand? "a a echo hi" = some ("a", "  a echo hi") := by
    rfl
  have h_second :
      (withAlias "a" " ").registry.expand? "  a echo hi" = some ("a", "  echo hi") := by
    rfl
  have h_last : (withAlias "a" " ").registry.expand? "  echo hi" = none := by rfl
  have h_unfolds := Registry.Unfolds.enter h_first (.enter h_second .refl)
  have h_twice : (withAlias "a" " ").registry.EntersTwice "a a echo hi" :=
    ⟨["a", "a"], "  echo hi", h_unfolds, by decide⟩
  exact ⟨(refuses_iff_entersTwice (withAlias_isPlain "a" " ") _).2 h_twice,
    ["a", "a"], "  echo hi", h_unfolds, h_last⟩

end Session

end PocketShell
