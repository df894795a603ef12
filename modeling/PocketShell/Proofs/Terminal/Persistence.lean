import PocketShell.Proofs.Session.Recording
import PocketShell.Proofs.Text.Trimming
import PocketShell.Terminal.Basic

/-!
# Histories that outlive a terminal

A terminal that keeps its history writes it to a file and reads it back when it is started again.
What comes back is what the file holds, shortened to the limit of the new session
(`Terminal.exists_restart`), and that limit is what the text of a variable stands for
(`Session.historyLimit_eq_iff`). The file holds the history as it was exactly if the history is
storable (`History.ofText_toText_iff`).

Histories that come of entering lines are storable (`Session.enterAll_storable`). The invariant is
that every entry is a line of its own and not empty. A line is trimmed before it is recorded, and
trimming leaves no carriage return at the end; a line feed could only come from the line itself.
Commands add nothing to the history, custom ones included as long as they do not write to it by
themselves, which is what `Registry.SparesHistory` says.
-/

namespace PocketShell

/-! ### Entered lines -/

/-- Custom commands leave the history alone, but for the lines that they have run. -/
def Registry.SparesHistory (registry : Registry) : Prop :=
  registry.Revises fun change => ∀ workspace, (change workspace).history = workspace.history

theorem Registry.IsPlain.sparesHistory {registry : Registry} (h : registry.IsPlain) :
    registry.SparesHistory :=
  fun name custom h_find => absurd h_find (h name custom)

theorem History.isLine_trim {line : String} (h_line : '\n' ∉ line.toList)
    (h_some : Text.trim line ≠ "") : IsLine (Text.trim line) where
  feedless h_mem := h_line (Text.mem_of_mem_trim h_mem)
  returnless h_last := by
    have h_blank := (Text.solid_trim h_some).last '\r' h_last
    revert h_blank
    decide

namespace Session

variable {session : Session}

/-- A line leaves the history as it was, or clears it. -/
theorem history_invoke_cases (h_spares : session.registry.SparesHistory) (line : String) :
    (session.invoke line).session.history = session.history ∨
      (session.invoke line).session.history = {} := by
  rw [invoke]
  refine (@dispatch_keeps (fun reached => reached.registry.SparesHistory ∧
    (reached.history = session.history ∨ reached.history = {})) ?_ ?_ session.maxDepth [] line
    session ⟨h_spares, .inl rfl⟩).2
  · rintro command args reached ⟨h_reached, h_history⟩
    refine ⟨(run_registered command args reached).revises h_reached, ?_⟩
    rw [Builtin.history_run_eq]
    split
    · exact .inr rfl
    · exact h_history
  · rintro custom word reached ⟨h_reached, h_history⟩ h_find enter h_enter call
    refine Script.run_keeps h_enter ?_ ?_ _ (h_reached word custom h_find call)
      ⟨h_reached, h_history⟩
    · rintro change h_change now ⟨h_now, h_history⟩
      exact ⟨h_now, h_change now.toWorkspace ▸ h_history⟩
    · rintro name command h_command before after ⟨h_before, h_history⟩ h_register
      refine ⟨h_before.register h_command (registry_of_register h_register), ?_⟩
      rw [history_of_register h_register]
      exact h_history

/-- **Histories of entered lines are storable.** -/
theorem enterAll_storable (h_spares : session.registry.SparesHistory)
    (h_empty : session.history = {}) {lines : List String}
    (h_lines : ∀ line ∈ lines, '\n' ∉ line.toList) :
    (session.after (session.enterAll lines)).history.Storable := by
  have h_kept := @enterAll_keeps (fun reached => reached.registry.SparesHistory ∧
    ∀ entry ∈ reached.history.entries, entry ≠ "" ∧ History.IsLine entry) lines ?_ session ?_
  · refine ⟨fun entry h_mem => (h_kept.2 entry h_mem).2, fun h_blank => ?_⟩
    exact (h_kept.2 "" (h_blank ▸ List.mem_singleton_self "")).1 rfl
  · rintro line h_mem reached ⟨h_reached, h_entries⟩
    refine ⟨reached.enter_revises h_reached line, ?_⟩
    by_cases h_some : Text.trim line = ""
    · rw [enter_of_blank reached h_some]
      exact h_entries
    · rw [entries_enter reached h_some]
      intro entry h_entry
      -- the entry is an old one, or the line itself
      rcases List.mem_append.1 ((History.newest_suffix _ _).subset h_entry) with h_old | h_new
      · rcases history_invoke_cases h_reached (Text.trim line) with h_same | h_clear
        · exact h_entries entry (h_same ▸ h_old)
        · rw [h_clear] at h_old
          cases h_old
      · obtain rfl := List.mem_singleton.1 h_new
        exact ⟨h_some, History.isLine_trim (h_lines line h_mem) h_some⟩
  · refine ⟨h_spares, ?_⟩
    rw [h_empty]
    exact fun entry h_entry => nomatch h_entry

end Session

/-! ### Restarting -/

namespace Terminal

theorem keepsHistory_restore (terminal : Terminal) (text : String) :
    (terminal.restore text).keepsHistory = terminal.keepsHistory := by
  unfold restore
  split
  · rfl
  · rfl

/-- Reading the history file does not change whether the history is kept. -/
theorem keepsHistory_of_readHistory {terminal after : Terminal} {path : String} {reading : Reading}
    (h : terminal.readHistory path reading = .ok after) :
    after.keepsHistory = terminal.keepsHistory := by
  cases reading with
  | missing =>
    cases h
    rfl
  | unreadable =>
    unfold readHistory at h
    dsimp only at h
    split at h
    · cases h
    · cases h
      rfl
  | text text =>
    cases h
    exact keepsHistory_restore terminal text

/-- The settings say whether the history is kept. -/
theorem keepsHistory_of_ofSettings {given : Settings} {terminal : Terminal}
    (h : ofSettings given = .ok terminal) : terminal.keepsHistory = given.keepsHistory := by
  unfold ofSettings at h
  split at h
  · cases h
    rfl
  · cases h

/-- What can be computed of a terminal can be said of it. -/
theorem exists_of_map_eq_some {started : Except Failure Terminal} {α : Type} {f : Terminal → α}
    {value : α} (h : started.toOption.map f = some value) :
    ∃ terminal, started = .ok terminal ∧ f terminal = value := by
  cases started with
  | error failure => cases h
  | ok terminal => exact ⟨terminal, rfl, Option.some.inj h⟩

theorem exists_of_start {places : Places} {settings reading : Reading} {first : Terminal}
    (h : start places settings reading = .ok first) :
    ∃ given fresh, readSettings places.settingsFile settings = .ok given ∧
      ofSettings given = .ok fresh ∧ fresh.readHistory places.historyFile reading = .ok first := by
  unfold start at h
  obtain ⟨given, h_given, h_rest⟩ := bind_eq_ok_iff.1 h
  obtain ⟨fresh, h_fresh, h_read⟩ := bind_eq_ok_iff.1 h_rest
  exact ⟨given, fresh, h_given, h_fresh, h_read⟩

/-- **Starting again.** With the same settings a terminal that keeps its history starts from any
text of its history file, and its history is the newest of the lines there. -/
theorem exists_restart {places : Places} {settings reading : Reading} {first : Terminal}
    (h_start : start places settings reading = .ok first) (h_keeps : first.keepsHistory = true)
    (text : String) :
    ∃ restarted, start places settings (.text text) = .ok restarted ∧
      restarted.session.history.entries =
        History.newest restarted.session.historyLimit (History.ofText text).entries := by
  obtain ⟨given, fresh, h_given, h_fresh, h_read⟩ := exists_of_start h_start
  rw [keepsHistory_of_readHistory h_read] at h_keeps
  refine ⟨fresh.restore text, ?_, ?_⟩
  · unfold start
    rw [h_given]
    show ofSettings given >>= _ = _
    rw [h_fresh]
    rfl
  · rw [restore, if_pos h_keeps, offered, if_pos h_keeps]
    exact History.entries_truncate _ _

/-- **The history persists.**

* A history is read back from its text as it was exactly if it is storable;
* the settings say whether a terminal keeps its history. One that does stores the text of it, and
  one that does not stores nothing;
* when a terminal that has stored its history is started again with the same settings, its history
  is the newest of the lines of the file, as many as the limit of the new session allows, and all of
  them if there is a number below zero for the limit;
* that limit is what the text of its variable stands for, without the blanks around it;
* whatever lines without a line feed are entered, starting from an empty history, the history is
  storable, as long as no custom command writes to it. -/
theorem history_persists :
    (∀ history : History, History.ofText history.toText = history ↔ history.Storable) ∧
      (∀ places settings reading first, start places settings reading = .ok first →
        (∀ given, readSettings places.settingsFile settings = .ok given →
          first.keepsHistory = given.keepsHistory) ∧
        ∀ ended : Terminal, ended.keepsHistory = first.keepsHistory →
          ended.stored? =
            (if first.keepsHistory then some ended.session.history.toText else none) ∧
          ∀ text ∈ ended.stored?,
            ∃ restarted, start places settings (.text text) = .ok restarted ∧
              restarted.session.history.entries = History.newest restarted.session.historyLimit
                (History.ofText ended.session.history.toText).entries ∧
              (∀ limit, restarted.session.historyLimit = limit ↔
                History.IsLimit
                  (Text.trim (restarted.session.env.get Environment.historyMaxName)).toList
                  limit) ∧
              (¬ 0 ≤ restarted.session.env.number Environment.historyMaxName →
                restarted.session.history =
                  History.ofText ended.session.history.toText)) ∧
      ∀ (session : Session) lines, session.registry.SparesHistory → session.history = {} →
        (∀ line ∈ lines, '\n' ∉ line.toList) →
        (session.after (session.enterAll lines)).history.Storable := by
  refine ⟨fun history => History.ofText_toText_iff, ?_,
    fun session lines h_spares h_empty h_lines =>
      session.enterAll_storable h_spares h_empty h_lines⟩
  intro places settings reading first h_start
  refine ⟨fun given h_given => ?_, fun ended h_same => ?_⟩
  · obtain ⟨same, fresh, h_same, h_fresh, h_read⟩ := exists_of_start h_start
    obtain rfl := Except.ok.inj (h_given.symm.trans h_same)
    rw [keepsHistory_of_readHistory h_read, keepsHistory_of_ofSettings h_fresh]
  · have h_stored : ended.stored? =
        if first.keepsHistory then some ended.session.history.toText else none := by
      rw [stored?, h_same]
    refine ⟨h_stored, fun text h_text => ?_⟩
    rw [h_stored] at h_text
    split at h_text
    · next h_keeps =>
      obtain rfl := Option.mem_some_iff.1 h_text
      obtain ⟨restarted, h_restart, h_entries⟩ :=
        exists_restart h_start h_keeps ended.session.history.toText
      refine ⟨restarted, h_restart, h_entries, restarted.session.historyLimit_eq_iff,
        fun h_negative => ?_⟩
      have h_limit : restarted.session.historyLimit = none := if_neg h_negative
      rw [h_limit] at h_entries
      exact congrArg History.mk h_entries
    · cases h_text

/-- A terminal is left with two lines in its history. Its settings leave room for one of them, so
the last one is there when it is started again. -/
theorem history_persists_once :
    let settings : Reading := .text "history_max = 1\nseed_filesystem = false"
    ∃ first ended restarted : Terminal,
      start ⟨"config.toml", "data"⟩ settings .missing = .ok first ∧
      ended.keepsHistory = first.keepsHistory ∧ ended.stored? = some "echo a\necho b\n" ∧
      start ⟨"config.toml", "data"⟩ settings (.text "echo a\necho b\n") = .ok restarted ∧
      restarted.session.historyLimit = some 1 ∧
      restarted.session.history.entries = ["echo b"] ∧
      ((Session.withAlias "h" "history").after
        ((Session.withAlias "h" "history").enterAll ["echo a", "h"])).history.Storable := by
  intro settings
  obtain ⟨h_codec, h_restart, h_entered⟩ := history_persists
  obtain ⟨first, h_start, h_keeps⟩ : ∃ first,
      start ⟨"config.toml", "data"⟩ settings .missing = .ok first ∧
        first.keepsHistory = true := by
    refine exists_of_map_eq_some ?_
    decide +kernel
  let left : History := ⟨["echo a", "echo b"]⟩
  let ended : Terminal := { first with session := { first.session with history := left } }
  have h_line : ∀ entry ∈ left.entries, History.IsLine entry := by
    intro entry h_mem
    rcases List.mem_pair.1 h_mem with rfl | rfl <;> exact ⟨by decide, by decide⟩
  have h_back : History.ofText left.toText = left := (h_codec left).2 ⟨h_line, by decide⟩
  obtain ⟨h_stored, h_again⟩ := (h_restart _ _ _ first h_start).2 ended rfl
  rw [if_pos h_keeps] at h_stored
  obtain ⟨restarted, h_restarted, h_entries, h_limits, -⟩ := h_again _ h_stored
  have h_limit : restarted.session.historyLimit = some 1 := by
    obtain ⟨same, h_same, h_text⟩ : ∃ same,
        start ⟨"config.toml", "data"⟩ settings (.text "echo a\necho b\n") = .ok same ∧
          (Text.trim (same.session.env.get Environment.historyMaxName)).toList =
            Decimal.digits 1 := by
      refine exists_of_map_eq_some ?_
      decide +kernel
    obtain rfl := Except.ok.inj (h_same.symm.trans h_restarted)
    exact (h_limits _).2 (h_text ▸ History.isLimit_digits (by decide))
  rw [h_back, h_limit] at h_entries
  have h_spares := (Session.withAlias_isPlain "h" "history").sparesHistory
  exact ⟨first, ended, restarted, h_start, rfl, h_stored, h_restarted, h_limit, h_entries,
    h_entered _ ["echo a", "h"] h_spares rfl (by decide)⟩

end Terminal

end PocketShell
