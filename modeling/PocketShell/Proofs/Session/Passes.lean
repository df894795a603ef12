import PocketShell.Proofs.Session.Invoke

/-!
# Running a line, pass by pass

`Session.dispatch` runs lines inside lines up to a depth. `Session.Runs` has the same rules without
any depth: a line is run in **passes**, one for each time that a line is looked up, and every pass
but the last enters an alias. A run is finite because it is a derivation; what has to be shown is
that there is one.

* `Session.Runs.unique` — a line has one run at most;
* `Session.Runs.dispatch_pass`, `Session.Runs.dispatch_eq` — the passes are the calls of `dispatch`,
  one inside the other. At a depth for all of them `dispatch` gives the reply of the run, and at a
  smaller depth it is cut off;
* `Registry.IsTrail` — the invariant of chains: different aliases of the registry. Entering an alias
  keeps it (`Registry.IsTrail.enter`), so it holds in every pass (`Session.Runs.isTrail`);
* `Session.Runs.length_le` — the chain grows with every pass and has room for the aliases of the
  registry only. No measure of the line would do, since the line may grow with every pass too;
* `Session.exists_run` — so every line has a run; `Session.invoke_terminates` says what is in it;
* `Session.Runs.rechain` — what is on the chain matters for nothing but refusing.
-/

namespace PocketShell

namespace Registry

variable {registry : Registry}

/-- **The list of aliases:** the commands that report the text of an alias. -/
theorem mem_aliases_iff {name text : String} :
    (name, text) ∈ registry.aliases ↔
      ∃ command, registry.find? name = some command ∧ command.aliasText? = some text := by
  unfold aliases
  simp only [find?, OrderedMap.find?_eq_some_iff, List.mem_filterMap, Option.map_eq_some_iff]
  constructor
  · rintro ⟨⟨other, command⟩, h_mem, text', h_text, h_eq⟩
    obtain ⟨rfl, rfl⟩ := Prod.mk.inj h_eq
    exact ⟨command, h_mem, h_text⟩
  · rintro ⟨command, h_mem, h_text⟩
    exact ⟨(name, command), h_mem, text, h_text, rfl⟩

/-- Without custom commands that report one, these are the aliases. -/
theorem mem_aliases_iff_of_find? {name text : String}
    (h_custom : ∀ custom, registry.find? name = some (.custom custom) → custom.aliasText? = none) :
    (name, text) ∈ registry.aliases ↔ registry.find? name = some (.aliasOf text) := by
  rw [mem_aliases_iff]
  constructor
  · rintro ⟨command, h_find, h_text⟩
    cases command with
    | builtin _ => cases h_text
    | aliasOf text' =>
      obtain rfl := Option.some.inj h_text
      exact h_find
    | custom custom =>
      have h_none := h_custom custom h_find
      rw [Command.aliasText?, h_none] at h_text
      cases h_text
  · exact fun h_find => ⟨.aliasOf text, h_find, rfl⟩

/-- **Trails.** Chains of aliases that are all different. -/
structure IsTrail (registry : Registry) (chain : List String) : Prop where
  nodup : chain.Nodup
  /-- Every name on the chain is one of an alias. -/
  isAlias : ∀ name ∈ chain, ∃ text, registry.find? name = some (.aliasOf text)

theorem IsTrail.nil : registry.IsTrail [] :=
  ⟨List.nodup_nil, fun _ h_mem => nomatch h_mem⟩

/-- **Entering an alias** that is not on the chain. -/
theorem IsTrail.enter {chain : List String} {word text : String} (h : registry.IsTrail chain)
    (h_find : registry.find? word = some (.aliasOf text)) (h_new : word ∉ chain) :
    registry.IsTrail (chain ++ [word]) where
  nodup := by
    rw [← List.concat_eq_append]
    exact h.nodup.concat h_new
  isAlias name h_mem := by
    rcases List.mem_append.1 h_mem with h_old | h_last
    · exact h.isAlias name h_old
    · obtain rfl := List.mem_singleton.1 h_last
      exact ⟨text, h_find⟩

/-- A trail is no longer than the list of aliases. -/
theorem IsTrail.length_le {chain : List String} (h : registry.IsTrail chain) :
    chain.length ≤ registry.aliases.length := by
  have h_subset : chain ⊆ registry.aliases.map Prod.fst := by
    intro name h_mem
    obtain ⟨text, h_find⟩ := h.isAlias name h_mem
    exact List.mem_map.2 ⟨(name, text), mem_aliases_iff.2 ⟨_, h_find, rfl⟩, rfl⟩
  have h_length := h.nodup.length_le_of_subset h_subset
  rwa [List.length_map] at h_length

theorem aliases_length_le (registry : Registry) : registry.aliases.length ≤ registry.size :=
  List.length_filterMap_le _ _

end Registry

namespace Session

/-- **Passes.** One time that a line is looked up and the command found is run. -/
structure Pass where
  /-- The aliases entered so far, outermost first. -/
  chain : List String
  line : String
  /-- The command that the first word of the line names. -/
  command? : Option Command

/-- Is the command of the pass anything but an alias? -/
def Pass.executes (pass : Pass) : Bool :=
  pass.command?.any fun command => command.replacement?.isNone

/-- **Runs** of a line behind a chain of aliases, in a session of built-in commands and aliases: the
passes, in order, and the reply. -/
inductive Runs (session : Session) : List String → String → List Pass → Reply → Prop where
  | blank {chain : List String} {line : String} :
      CommandLine.ofString? (Text.trim line) = none →
      Runs session chain line [⟨chain, line, none⟩] (.say session [])
  | unknown {chain : List String} {line word args : String} :
      CommandLine.ofString? (Text.trim line) = some ⟨word, args⟩ →
      session.registry.find? word = none →
      Runs session chain line [⟨chain, line, none⟩] (.fail session (.unknownCommand word))
  | builtin {chain : List String} {line word args : String} {command : Builtin} :
      CommandLine.ofString? (Text.trim line) = some ⟨word, args⟩ →
      session.registry.find? word = some (.builtin command) →
      Runs session chain line [⟨chain, line, some (.builtin command)⟩] (command.run args session)
  | refuse {chain : List String} {line word args text : String} :
      CommandLine.ofString? (Text.trim line) = some ⟨word, args⟩ →
      session.registry.find? word = some (.aliasOf text) → word ∈ chain →
      Runs session chain line [⟨chain, line, some (.aliasOf text)⟩]
        (.fail session (.cyclicAlias (chain ++ [word])))
  | enter {chain : List String} {line word args text : String} {passes : List Pass}
      {reply : Reply} :
      CommandLine.ofString? (Text.trim line) = some ⟨word, args⟩ →
      session.registry.find? word = some (.aliasOf text) → word ∉ chain →
      Runs session (chain ++ [word]) (text ++ " " ++ args) passes reply →
      Runs session chain line (⟨chain, line, some (.aliasOf text)⟩ :: passes) reply

variable {session : Session}

namespace Runs

variable {chain : List String} {line : String} {passes : List Pass} {reply : Reply}

/-- **A line has one run at most.** -/
theorem unique (h : session.Runs chain line passes reply) {passes' : List Pass} {reply' : Reply}
    (h' : session.Runs chain line passes' reply') : passes' = passes ∧ reply' = reply := by
  induction h generalizing passes' reply' with
  | blank h_line => cases h' <;> simp_all
  | unknown h_line h_find => cases h' <;> simp_all
  | builtin h_line h_find => cases h' <;> simp_all
  | refuse h_line h_find h_mem => cases h' <;> simp_all
  | enter h_line h_find h_new h_rest ih =>
    cases h' with
    | enter h_line' h_find' h_new' h_rest' =>
      -- the rest of both runs is a run of the same line behind the same chain
      rw [h_line, Option.some.injEq, CommandLine.mk.injEq] at h_line'
      obtain ⟨rfl, rfl⟩ := h_line'
      rw [h_find, Option.some.injEq, Command.aliasOf.injEq] at h_find'
      obtain rfl := h_find'
      obtain ⟨rfl, rfl⟩ := ih h_rest'
      exact ⟨rfl, rfl⟩
    | _ => simp_all

/-- **The passes are the calls of `dispatch`:** what a line comes to is what any of its passes comes
to, one depth less for each pass before it. -/
theorem dispatch_pass (h : session.Runs chain line passes reply) {i : Nat} {pass : Pass}
    (h_pass : passes[i]? = some pass) (depth : Nat) :
    dispatch (depth + i) chain line session = dispatch depth pass.chain pass.line session := by
  induction h generalizing i with
  | enter h_line h_find h_new _ ih =>
    cases i with
    | zero =>
      cases h_pass
      rfl
    | succ i =>
      -- the alias is entered, and the pass is one of those behind it
      rw [List.getElem?_cons_succ] at h_pass
      rw [← ih h_pass, ← Nat.add_assoc]
      conv => lhs; unfold dispatch
      simp [h_line, h_find, h_new]
  | _ =>
    cases i with
    | zero =>
      cases h_pass
      rfl
    | succ i => cases h_pass

/-- **Depth.** With a depth for all its passes a line is run to its end, and with less depth it is
cut off. -/
theorem dispatch_eq (h : session.Runs chain line passes reply) (depth : Nat) :
    dispatch depth chain line session =
      if passes.length ≤ depth then reply else .fail session .nestedTooDeep := by
  induction h generalizing depth with
  | enter h_line h_find h_new _ ih =>
    cases depth with
    | zero => rfl
    | succ depth =>
      unfold dispatch
      simp [h_line, h_find, h_new, ih depth]
  | _ =>
    -- the last pass takes one depth
    cases depth with
    | zero => rfl
    | succ depth =>
      unfold dispatch
      simp [*]

/-- **Every chain of a run is a trail.** -/
theorem isTrail (h : session.Runs chain line passes reply)
    (h_trail : session.registry.IsTrail chain) :
    ∀ pass ∈ passes, session.registry.IsTrail pass.chain := by
  induction h with
  | enter _ h_find h_new _ ih =>
    exact List.forall_mem_cons.2 ⟨h_trail, ih (h_trail.enter h_find h_new)⟩
  | _ => exact List.forall_mem_singleton.2 h_trail

/-- **The chain and the passes to come** are no more than the aliases and one pass. -/
theorem length_le (h : session.Runs chain line passes reply)
    (h_trail : session.registry.IsTrail chain) :
    chain.length + passes.length ≤ session.registry.aliases.length + 1 := by
  induction h with
  | enter _ h_find h_new _ ih =>
    have h_rest := ih (h_trail.enter h_find h_new)
    rw [List.length_append, List.length_singleton] at h_rest
    rw [List.length_cons]
    omega
  | _ => exact Nat.add_le_add_right h_trail.length_le 1

/-- All passes but the last enter an alias, so one command is run at most. -/
theorem countP_executes_le (h : session.Runs chain line passes reply) :
    passes.countP Pass.executes ≤ 1 := by
  induction h with
  | enter _ _ _ _ ih =>
    rw [List.countP_cons_of_neg (by simp [Pass.executes, Command.replacement?])]
    exact ih
  | _ => exact List.countP_le_length

/-- **Refusals.** The error names the chain and the alias that is on it, and there is nothing else
to the reply. -/
theorem refusal (h : session.Runs chain line passes reply)
    (h_trail : session.registry.IsTrail chain) {names : List String}
    (h_error : reply.result = .error (.cyclicAlias names)) :
    reply = .fail session (.cyclicAlias names) ∧
      ∃ front last, names = front ++ [last] ∧ front.Nodup ∧ last ∈ front := by
  induction h with
  | blank => cases h_error
  | unknown => cases h_error
  | builtin =>
    -- a built-in command has no such error
    cases Builtin.run_not_nesting h_error
  | @refuse chain _ word _ _ _ _ h_mem =>
    cases h_error
    exact ⟨rfl, chain, word, rfl, h_trail.nodup, h_mem⟩
  | enter _ h_find h_new _ ih => exact ih (h_trail.enter h_find h_new) h_error

/-- **Another chain.** Behind a chain that holds less, a line that is not refused is run with the
same reply. -/
theorem rechain (h : session.Runs chain line passes reply)
    (h_result : ∀ names, reply.result ≠ .error (.cyclicAlias names)) {shorter : List String}
    (h_subset : shorter ⊆ chain) : ∃ passes', session.Runs shorter line passes' reply := by
  induction h generalizing shorter with
  | blank h_line => exact ⟨_, .blank h_line⟩
  | unknown h_line h_find => exact ⟨_, .unknown h_line h_find⟩
  | builtin h_line h_find => exact ⟨_, .builtin h_line h_find⟩
  | refuse => exact absurd rfl (h_result _)
  | @enter chain _ word _ _ _ _ h_line h_find h_new _ ih =>
    have h_longer : shorter ++ [word] ⊆ chain ++ [word] :=
      List.append_subset.2 ⟨fun _ h_mem => List.mem_append_left _ (h_subset h_mem),
        List.subset_append_right chain [word]⟩
    obtain ⟨rest, h_rest⟩ := ih h_result h_longer
    exact ⟨_, .enter h_line h_find (fun h_mem => h_new (h_subset h_mem)) h_rest⟩

end Runs

/-! ### Every line has a run -/

/-- **Runs exist.** A line is run to its end behind every trail: each pass leaves fewer aliases to
be entered. -/
theorem exists_run (h_plain : session.registry.IsPlain) {chain : List String}
    (h_trail : session.registry.IsTrail chain) (line : String) :
    ∃ passes reply, session.Runs chain line passes reply := by
  cases h_line : CommandLine.ofString? (Text.trim line) with
  | none => exact ⟨_, _, .blank h_line⟩
  | some commandLine =>
    obtain ⟨word, args⟩ := commandLine
    cases h_find : session.registry.find? word with
    | none => exact ⟨_, _, .unknown h_line h_find⟩
    | some command =>
      cases command with
      | builtin builtin => exact ⟨_, _, .builtin h_line h_find⟩
      | custom custom => exact absurd h_find (h_plain word custom)
      | aliasOf text =>
        by_cases h_mem : word ∈ chain
        · exact ⟨_, _, .refuse h_line h_find h_mem⟩
        · have h_longer := h_trail.enter h_find h_mem
          have h_room := h_longer.length_le
          obtain ⟨passes, reply, h_rest⟩ := exists_run h_plain h_longer (text ++ " " ++ args)
          exact ⟨_, _, .enter h_line h_find h_mem h_rest⟩
termination_by session.registry.aliases.length - chain.length
decreasing_by
  rw [List.length_append, List.length_singleton] at h_room ⊢
  omega

/-- What `invoke` answers is the reply of the run. -/
theorem Runs.invoke_eq {line : String} {passes : List Pass} {reply : Reply}
    (h : session.Runs [] line passes reply) : session.invoke line = reply := by
  -- the depth of a session is enough for all its names
  have h_length := h.length_le .nil
  have h_size := session.registry.aliases_length_le
  have h_depth : session.registry.size + 1 ≤ session.maxDepth := by
    rw [Nat.add_comm]
    exact Nat.add_le_add_right (by decide) _
  rw [List.length_nil, Nat.zero_add] at h_length
  rw [invoke, h.dispatch_eq, if_pos (by omega)]

/-- **Lines come to an end.** In a session of built-in commands and aliases, whether or not the
aliases refer to themselves or to each other, a line has exactly one run, and `invoke` answers with
its reply:

* the first pass is followed by no more passes than there are aliases;
* the passes are the calls of `dispatch`, and any depth for all of them gives the same reply;
* the chain of every pass consists of different aliases;
* at most one pass runs a command that is no alias;
* if the line is refused, it is for an alias at the end of the chain that is on it before, and
  nothing was written or changed. -/
theorem invoke_terminates (h_plain : session.registry.IsPlain) (line : String) :
    ∃ passes, session.Runs [] line passes (session.invoke line) ∧
      (∀ passes' reply, session.Runs [] line passes' reply →
        passes' = passes ∧ reply = session.invoke line) ∧
      passes.tail.length ≤ session.registry.aliases.length ∧
      (∀ depth, dispatch depth [] line session =
        if passes.length ≤ depth then session.invoke line else .fail session .nestedTooDeep) ∧
      (∀ i pass, passes[i]? = some pass → ∀ depth,
        dispatch (depth + i) [] line session = dispatch depth pass.chain pass.line session) ∧
      (∀ pass ∈ passes, session.registry.IsTrail pass.chain) ∧
      passes.countP Pass.executes ≤ 1 ∧
      ∀ names, (session.invoke line).result = .error (.cyclicAlias names) →
        session.invoke line = .fail session (.cyclicAlias names) ∧
          ∃ front last, names = front ++ [last] ∧ front.Nodup ∧ last ∈ front := by
  obtain ⟨passes, reply, h_run⟩ := exists_run h_plain .nil line
  obtain rfl := h_run.invoke_eq
  have h_length := h_run.length_le .nil
  refine ⟨passes, h_run, fun _ _ h => h_run.unique h, ?_, h_run.dispatch_eq,
    fun _ _ h => h_run.dispatch_pass h, h_run.isTrail .nil, h_run.countP_executes_le,
    fun _ => h_run.refusal .nil⟩
  rw [List.length_nil] at h_length
  rw [List.length_tail]
  omega

/-- An alias whose text is longer than its name enters itself once and is refused. -/
theorem invoke_terminates_again :
    (withAlias "again" "again and").registry.IsPlain ∧
      ∃ passes, (withAlias "again" "again and").Runs [] "again" passes
          (.fail (withAlias "again" "again and") (.cyclicAlias ["again", "again"])) ∧
        passes.tail.length ≤ 1 ∧ passes.countP Pass.executes ≤ 1 := by
  have h_plain := withAlias_isPlain "again" "again and"
  obtain ⟨passes, h_run, -, h_length, -, -, -, h_count, h_refusal⟩ :=
    invoke_terminates h_plain "again"
  obtain ⟨h_invoke, -⟩ := h_refusal ["again", "again"] rfl
  rw [h_invoke] at h_run
  exact ⟨h_plain, passes, h_run, h_length, h_count⟩

end Session

end PocketShell
