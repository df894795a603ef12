import Mathlib.Data.List.Nodup
import PocketShell.Session.Dispatch

/-!
# Expanding aliases

A line whose first word is an alias is replaced by the text of the alias with the arguments of the
line behind it; `Registry.expand?` makes this replacement once. `Registry.Unfolds` makes it any
number of times, whether aliases come back or not, and keeps the aliases that were entered on the
way. When the first word of a line is no alias, the line is run where it is, by `Session.settle`.

With aliases and built-in commands only, running a line is unfolding it as long as every alias is
new. Then either the last line is settled, or its first word is an alias that was entered before and
the run fails (`Session.invoke_cases`). The aliases entered are different, so there are no more of
them than names in the registry; hence the depth that `Session.invoke` allows is not used up.
-/

namespace PocketShell

/-- The text that is run in the place of a command. -/
def Command.replacement? : Command → Option String
  | .aliasOf text => some text
  | .builtin _ | .custom _ => none

namespace Registry

/-- **Registries of built-in commands and aliases.** -/
def IsPlain (registry : Registry) : Prop :=
  ∀ name custom, registry.find? name ≠ some (.custom custom)

/-- **One replacement.** The alias that is the first word of a line, and the line to be run in its
place. -/
def expand? (registry : Registry) (line : String) : Option (String × String) :=
  match CommandLine.ofString? (Text.trim line) with
  | none => none
  | some ⟨word, args⟩ =>
    ((registry.find? word).bind Command.replacement?).map fun text => (word, text ++ " " ++ args)

/-- **Unfolding.** The aliases that a line enters one after the other, and the line that stands
there then. -/
inductive Unfolds (registry : Registry) : String → List String → String → Prop where
  | refl {line : String} : Unfolds registry line [] line
  | enter {line word next last : String} {words : List String} :
      registry.expand? line = some (word, next) → Unfolds registry next words last →
      Unfolds registry line (word :: words) last

/-- Unfolding comes to a line that is not replaced any more. -/
def Stops (registry : Registry) (line : String) : Prop :=
  ∃ words last, registry.Unfolds line words last ∧ registry.expand? last = none

variable {registry : Registry}

theorem expand?_eq_some_iff {line word next : String} :
    registry.expand? line = some (word, next) ↔
      ∃ text args, CommandLine.ofString? (Text.trim line) = some ⟨word, args⟩ ∧
        registry.find? word = some (.aliasOf text) ∧ next = text ++ " " ++ args := by
  unfold expand?
  constructor
  · intro h_expand
    split at h_expand
    · cases h_expand
    · next first args h_line =>
      obtain ⟨text, h_text, h_eq⟩ := Option.map_eq_some_iff.1 h_expand
      obtain ⟨command, h_find, h_alias⟩ := Option.bind_eq_some_iff.1 h_text
      cases h_eq
      cases command with
      | aliasOf text' =>
        cases h_alias
        exact ⟨text, args, h_line, h_find, rfl⟩
      | builtin _ => cases h_alias
      | custom _ => cases h_alias
  · rintro ⟨text, args, h_line, h_find, rfl⟩
    rw [h_line]
    simp only [h_find, Option.bind_some, Command.replacement?, Option.map_some]

theorem Unfolds.find? {line last : String} {words : List String}
    (h : registry.Unfolds line words last) :
    ∀ word ∈ words, ∃ text, registry.find? word = some (.aliasOf text) := by
  induction h with
  | refl => exact fun _ h_mem => nomatch h_mem
  | enter h_expand _ ih =>
    intro word h_mem
    rcases List.mem_cons.1 h_mem with rfl | h_rest
    · obtain ⟨text, -, -, h_find, -⟩ := expand?_eq_some_iff.1 h_expand
      exact ⟨text, h_find⟩
    · exact ih word h_rest

theorem Unfolds.trans {line middle last : String} {front back : List String}
    (h_front : registry.Unfolds line front middle) (h_back : registry.Unfolds middle back last) :
    registry.Unfolds line (front ++ back) last := by
  induction h_front with
  | refl => exact h_back
  | enter h_expand _ ih => exact .enter h_expand (ih h_back)

theorem Unfolds.snoc {line last word next : String} {words : List String}
    (h : registry.Unfolds line words last) (h_expand : registry.expand? last = some (word, next)) :
    registry.Unfolds line (words ++ [word]) next :=
  h.trans (.enter h_expand .refl)

/-- There is one way to unfold a line: what is entered before the last line is a beginning of what
is entered until unfolding stops. -/
theorem Unfolds.isPrefix {line last stop : String} {words all : List String}
    (h : registry.Unfolds line words last) (h_all : registry.Unfolds line all stop)
    (h_stop : registry.expand? stop = none) : words <+: all := by
  induction h generalizing all with
  | refl => exact List.nil_prefix
  | enter h_expand _ ih =>
    cases h_all with
    | refl =>
      rw [h_stop] at h_expand
      cases h_expand
    | enter h_expand' h_rest =>
      rw [h_expand, Option.some.injEq, Prod.mk.injEq] at h_expand'
      obtain ⟨rfl, rfl⟩ := h_expand'
      exact List.cons_prefix_cons.2 ⟨rfl, ih h_rest⟩

/-- Different aliases are no more than the registry has names. -/
theorem Unfolds.length_le {line last : String} {words : List String}
    (h : registry.Unfolds line words last) (h_nodup : words.Nodup) :
    words.length ≤ registry.size := by
  -- every alias is a name of the registry
  have h_subset : words ⊆ registry.commands.keys := by
    intro word h_mem
    obtain ⟨text, h_find⟩ := h.find? word h_mem
    exact List.mem_map.2 ⟨_, OrderedMap.find?_eq_some_iff.1 h_find, rfl⟩
  have h_length := h_nodup.length_le_of_subset h_subset
  rwa [OrderedMap.keys, List.length_map] at h_length

/-- Unfolding with different aliases can be continued until it stops or an alias comes back. -/
theorem Unfolds.exists_end {line last : String} {words : List String}
    (h : registry.Unfolds line words last) (h_nodup : words.Nodup) :
    ∃ words last, registry.Unfolds line words last ∧ words.Nodup ∧
      (registry.expand? last = none ∨
        ∃ word next, registry.expand? last = some (word, next) ∧ word ∈ words) := by
  cases h_expand : registry.expand? last with
  | none => exact ⟨words, last, h, h_nodup, .inl h_expand⟩
  | some step =>
    by_cases h_old : step.1 ∈ words
    · exact ⟨words, last, h, h_nodup, .inr ⟨step.1, step.2, h_expand, h_old⟩⟩
    · -- one alias more, and one name less that is left
      have h_longer : (words ++ [step.1]).Nodup := by
        rw [← List.concat_eq_append]
        exact h_nodup.concat h_old
      have h_room := (h.snoc h_expand).length_le h_longer
      exact (h.snoc h_expand).exists_end h_longer
termination_by registry.size - words.length
decreasing_by
  rw [List.length_append, List.length_singleton] at h_room ⊢
  omega

/-- **Unfolding with different aliases ends:** at a line that is not replaced, or at an alias that
was entered before. -/
theorem exists_unfolding (registry : Registry) (line : String) :
    ∃ words last, registry.Unfolds line words last ∧ words.Nodup ∧
      (registry.expand? last = none ∨
        ∃ word next, registry.expand? last = some (word, next) ∧ word ∈ words) :=
  Unfolds.refl.exists_end List.nodup_nil

end Registry

/-! ### Running a line -/

namespace Session

variable {session : Session}

/-- **Settling a line:** what a line does whose first word is no alias. -/
def settle (session : Session) (line : String) : Reply :=
  match CommandLine.ofString? (Text.trim line) with
  | none => .say session []
  | some ⟨word, args⟩ =>
    match session.registry.find? word with
    | some (.builtin command) => command.run args session
    | _ => .fail session (.unknownCommand word)

/-- A line whose first word is no alias is settled. -/
theorem dispatch_of_expand?_eq_none (h_plain : session.registry.IsPlain) {line : String}
    (h_expand : session.registry.expand? line = none) (depth : Nat) (chain : List String) :
    dispatch (depth + 1) chain line session = session.settle line := by
  unfold Registry.expand? at h_expand
  conv => lhs; unfold dispatch
  unfold settle
  cases h_line : CommandLine.ofString? (Text.trim line) with
  | none => rfl
  | some commandLine =>
    obtain ⟨word, args⟩ := commandLine
    rw [h_line] at h_expand
    cases h_find : session.registry.find? word with
    | none => simp only [h_find]
    | some command =>
      cases command with
      | builtin builtin => simp only [h_find]
      | aliasOf text => simp [h_find, Command.replacement?] at h_expand
      | custom custom => exact absurd h_find (h_plain word custom)

/-- A line whose first word is an alias is replaced, unless the alias was entered before. -/
theorem dispatch_of_expand?_eq_some {line word next : String}
    (h_expand : session.registry.expand? line = some (word, next)) (depth : Nat)
    (chain : List String) :
    dispatch (depth + 1) chain line session =
      if word ∈ chain then .fail session (.cyclicAlias (chain ++ [word]))
      else dispatch depth (chain ++ [word]) next session := by
  obtain ⟨text, args, h_line, h_find, rfl⟩ := Registry.expand?_eq_some_iff.1 h_expand
  conv => lhs; unfold dispatch
  simp only [h_line, h_find]

/-- **Running follows unfolding** as long as every alias is new to the chain. -/
theorem dispatch_of_unfolds {line last : String} {words : List String}
    (h : session.registry.Unfolds line words last) (depth : Nat) {chain : List String}
    (h_nodup : (chain ++ words).Nodup) :
    dispatch (depth + words.length) chain line session =
      dispatch depth (chain ++ words) last session := by
  induction h generalizing chain with
  | refl => simp
  | @enter line word next last words h_expand _ ih =>
    -- no alias of the unfolding is on the chain
    have h_new : word ∉ chain := fun h_mem =>
      (List.nodup_append.1 h_nodup).2.2 word h_mem word List.mem_cons_self rfl
    have h_assoc : chain ++ word :: words = (chain ++ [word]) ++ words := by simp
    rw [List.length_cons, ← Nat.add_assoc, dispatch_of_expand?_eq_some h_expand, if_neg h_new,
      ih (h_assoc ▸ h_nodup), h_assoc]

/-- The depth of a session is enough for all its names. -/
theorem exists_maxDepth_eq {n : Nat} (h : n ≤ session.registry.size) :
    ∃ depth, session.maxDepth = depth + 1 + n := by
  have h_room : 1 ≤ UInt64.size := by decide
  unfold maxDepth
  exact ⟨UInt64.size + session.registry.size - 1 - n, by omega⟩

/-- **The two outcomes of a line.** The line enters different aliases, and then the line that stands
there is settled, or an alias is refused that was entered before. -/
theorem invoke_cases (h_plain : session.registry.IsPlain) (line : String) :
    ∃ words last, session.registry.Unfolds line words last ∧ words.Nodup ∧
      ((session.registry.expand? last = none ∧ session.invoke line = session.settle last) ∨
        ∃ word next, session.registry.expand? last = some (word, next) ∧ word ∈ words ∧
          session.invoke line = .fail session (.cyclicAlias (words ++ [word]))) := by
  obtain ⟨words, last, h_unfolds, h_nodup, h_end⟩ := session.registry.exists_unfolding line
  obtain ⟨depth, h_depth⟩ := exists_maxDepth_eq (h_unfolds.length_le h_nodup)
  -- the run goes as far as the aliases are new, and has depth left for one line more
  have h_run : session.invoke line = dispatch (depth + 1) words last session := by
    rw [invoke, h_depth, ← List.nil_append words]
    exact dispatch_of_unfolds h_unfolds (depth + 1) h_nodup
  refine ⟨words, last, h_unfolds, h_nodup, ?_⟩
  rcases h_end with h_none | ⟨word, next, h_some, h_old⟩
  · rw [h_run, dispatch_of_expand?_eq_none h_plain h_none]
    exact .inl ⟨h_none, rfl⟩
  · rw [h_run, dispatch_of_expand?_eq_some h_some, if_pos h_old]
    exact .inr ⟨word, next, h_some, h_old, rfl⟩

end Session

end PocketShell
