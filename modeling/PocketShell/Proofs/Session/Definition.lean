import PocketShell.Proofs.Pair
import PocketShell.Proofs.Session.Passes
import PocketShell.Proofs.Session.Registering

/-!
# Defining an alias and using it

Between quotes any name that is not empty can be given to any text that is not empty: the line
`alias "name"="text"` binds the name to the text, and nothing else happens (`Session.invoke_alias`).
From then on the name in quotes, with arguments behind it, stands for the text with these arguments
(`Session.invoke_quote`).

How the two lines are read is settled in three steps. `Text.trim` keeps the quotes at the ends; the
command word is found by `CommandLine.ofString?_trim_plain` or by `ofString?_trim_quote`; and the
arguments of `alias` spell one pair, so they are read as that pair (`Pair.parse_quote`).

The text runs behind a chain that holds the name already, which can only make a difference to what
is refused (`Session.Runs.rechain`).
-/

namespace PocketShell

/-- A key and a value between quotes are one pair, whatever they contain. -/
theorem Pair.parse_quote {key value : String} (h_key : key ≠ "") (h_value : value ≠ "") :
    parse (Token.quote key ++ "=" ++ Token.quote value) = [.ok ⟨key, value⟩] := by
  let pair : Pair := ⟨key, value⟩
  have h_line : SpellsLine [pair] (Token.quote key ++ "=" ++ Token.quote value) :=
    .last (.value .quoted)
  have h_legible : pair.Legible := ⟨h_key, fun h_empty => absurd h_empty h_value⟩
  have h_contents := contents_of_spellsLine (List.forall_mem_singleton.2 h_key) h_line
  exact parse_of_contents h_line.ne_nil (List.forall_mem_singleton.2 h_legible) h_contents

namespace Session

/-- **Defining an alias.** The session with one name bound to a text to be run in its place. -/
def define (session : Session) (name text : String) : Session :=
  { session with registry := ⟨session.registry.commands.insert name (.aliasOf text)⟩ }

variable {session : Session} {name text : String}

theorem find?_define (session : Session) (name text word : String) :
    (session.define name text).registry.find? word =
      if word = name then some (.aliasOf text) else session.registry.find? word :=
  OrderedMap.find?_insert _ _ _ _

theorem define_isPlain (h_plain : session.registry.IsPlain) (name text : String) :
    (session.define name text).registry.IsPlain :=
  h_plain.insert name nofun

/-! ### The line that defines -/

/-- How the line is read. -/
theorem ofString?_alias (name text : String) :
    CommandLine.ofString? (Text.trim ("alias " ++ Token.quote name ++ "=" ++ Token.quote text)) =
      some ⟨"alias", Token.quote name ++ "=" ++ Token.quote text⟩ := by
  let pair := Token.quote name ++ "=" ++ Token.quote text
  have h_pair : Text.Solid pair := (Token.quote_solid name).append (Token.quote_solid text) "="
  have h_plain : ∀ c ∈ "alias".toList, Scanner.Mode.plain.Keeps [] c :=
    List.forall_iff_forall_mem.1 (by decide)
  have h_line : "alias " ++ Token.quote name ++ "=" ++ Token.quote text =
      "alias" ++ " " ++ pair := by
    apply String.toList_inj.1
    simp [pair]
  rw [h_line, CommandLine.ofString?_trim_plain (by decide) h_plain, h_pair.trim_eq]

/-- Defining one alias succeeds, if no command of that name is protected. -/
theorem aliasAll_pair (h_text : text ≠ "")
    (h_free : (session.registry.find? name).any Command.immutable = false) :
    session.aliasAll [.ok ⟨name, text⟩] = { session := session.define name text } := by
  have h_register : session.register name (.aliasOf text) = .ok (session.define name text) := by
    rw [register, Registry.register, h_free]
    rfl
  rw [aliasAll, if_neg h_text, h_register]
  rfl

theorem invoke_alias (h_alias : session.registry.find? "alias" = some (.builtin .defineAlias))
    (h_name : name ≠ "") (h_text : text ≠ "")
    (h_free : (session.registry.find? name).any Command.immutable = false) :
    session.invoke ("alias " ++ Token.quote name ++ "=" ++ Token.quote text) =
      { session := session.define name text } := by
  have h_some : Token.quote name ++ "=" ++ Token.quote text ≠ "" :=
    ((Token.quote_solid name).append (Token.quote_solid text) "=").ne_empty
  have h_run : session.Runs [] _ _ _ := .builtin (ofString?_alias name text) h_alias
  rw [h_run.invoke_eq, Builtin.run, if_neg h_some, Pair.parse_quote h_name h_text,
    aliasAll_pair h_text h_free]

/-! ### The lines that use the alias -/

/-- How such a line is read. -/
theorem ofString?_trim_quote (h_name : name ≠ "") (args : String) :
    CommandLine.ofString? (Text.trim (Token.quote name ++ " " ++ args)) =
      some ⟨name, Text.trim args⟩ := by
  rw [Token.quote_eq]
  exact CommandLine.ofString?_trim_of_quotes h_name (Scanner.Mode.spells_escape [] name) args

/-- A line that begins with the name in quotes runs the text of the alias behind the name. -/
theorem exists_run_quote (h_plain : session.registry.IsPlain)
    (h_find : session.registry.find? name = some (.aliasOf text)) (h_name : name ≠ "")
    (args : String) :
    ∃ passes, session.Runs [name] (text ++ " " ++ Text.trim args) passes
      (session.invoke (Token.quote name ++ " " ++ args)) := by
  have h_trail : session.registry.IsTrail [name] :=
    Registry.IsTrail.nil.enter h_find List.not_mem_nil
  obtain ⟨passes, reply, h_rest⟩ := exists_run h_plain h_trail (text ++ " " ++ Text.trim args)
  have h_run := Runs.enter (ofString?_trim_quote h_name args) h_find List.not_mem_nil h_rest
  rw [h_run.invoke_eq]
  exact ⟨passes, h_rest⟩

/-- The name in quotes does what its text does behind it. -/
theorem invoke_quote (h_plain : session.registry.IsPlain)
    (h_find : session.registry.find? name = some (.aliasOf text)) (h_name : name ≠ "")
    (args : String) {depth : Nat} (h_depth : session.registry.aliases.length ≤ depth) :
    session.invoke (Token.quote name ++ " " ++ args) =
      dispatch depth [name] (text ++ " " ++ Text.trim args) session := by
  obtain ⟨passes, h_run⟩ := exists_run_quote h_plain h_find h_name args
  -- one alias is on the chain, so the passes are no more than the aliases
  have h_length := h_run.length_le (Registry.IsTrail.nil.enter h_find List.not_mem_nil)
  rw [List.length_singleton] at h_length
  rw [h_run.dispatch_eq, if_pos (by omega)]

/-- If nothing is refused, the name in quotes does what its text does as a line. -/
theorem invoke_quote_eq_invoke (h_plain : session.registry.IsPlain)
    (h_find : session.registry.find? name = some (.aliasOf text)) (h_name : name ≠ "")
    {args : String} (h_result : ∀ names,
      (session.invoke (Token.quote name ++ " " ++ args)).result ≠ .error (.cyclicAlias names)) :
    session.invoke (Token.quote name ++ " " ++ args) =
      session.invoke (text ++ " " ++ Text.trim args) := by
  obtain ⟨passes, h_run⟩ := exists_run_quote h_plain h_find h_name args
  obtain ⟨passes', h_run'⟩ := h_run.rechain h_result (List.nil_subset [name])
  exact h_run'.invoke_eq.symm

/-- **Aliases are transparent.** In a session of built-in commands and aliases, let `name` be a name
that no protected command has and `text` any text, both not empty.

* The line `alias "name"="text"` succeeds, writes nothing, and binds the name to the text.
* After that, a line that begins with `"name"` does what the text with the trimmed arguments does
  behind the name.
* It also does what the text with these arguments does as a line, unless an alias is refused. -/
theorem alias_transparent (h_equipped : session.registry.Equipped) (h_name : name ≠ "")
    (h_text : text ≠ "") (h_free : (session.registry.find? name).any Command.immutable = false) :
    session.invoke ("alias " ++ Token.quote name ++ "=" ++ Token.quote text) =
        { session := session.define name text } ∧
      ∀ args,
        let defined := session.define name text
        let used := defined.invoke (Token.quote name ++ " " ++ args)
        (∀ depth, defined.registry.aliases.length ≤ depth →
          used = dispatch depth [name] (text ++ " " ++ Text.trim args) defined) ∧
        ((∀ names, used.result ≠ .error (.cyclicAlias names)) →
          used = defined.invoke (text ++ " " ++ Text.trim args)) := by
  have h_plain := define_isPlain h_equipped.plain name text
  have h_find : (session.define name text).registry.find? name = some (.aliasOf text) := by
    rw [find?_define, if_pos rfl]
  refine ⟨invoke_alias h_equipped.alias_eq h_name h_text h_free, fun args => ⟨?_, ?_⟩⟩
  · exact fun depth h_depth => invoke_quote h_plain h_find h_name args h_depth
  · exact fun h_result => invoke_quote_eq_invoke h_plain h_find h_name h_result

/-- The name and the text contain blanks, quotes, backslashes and an `=`, and the text begins with
another alias. -/
theorem alias_transparent_spaces :
    let session := withAlias "bind" "set"
    let defined := session.define "my \"own\" = word" "bind a=\"b \\\\ c\""
    let used := defined.invoke "\"my \\\"own\\\" = word\"  d=e "
    session.registry.Equipped ∧
      session.invoke "alias \"my \\\"own\\\" = word\"=\"bind a=\\\"b \\\\\\\\ c\\\"\"" =
        { session := defined } ∧
      used.session.env.toList = [("a", "b \\ c"), ("d", "e")] ∧
      used = defined.invoke "bind a=\"b \\\\ c\" d=e" := by
  have h_equipped : (withAlias "bind" "set").registry.Equipped :=
    ⟨withAlias_isPlain "bind" "set", by rfl⟩
  obtain ⟨h_define, h_use⟩ := @alias_transparent (withAlias "bind" "set") "my \"own\" = word"
    "bind a=\"b \\\\ c\"" h_equipped (by decide) (by decide) (by rfl)
  obtain ⟨-, h_direct⟩ := h_use " d=e "
  have h_result : (((withAlias "bind" "set").define "my \"own\" = word"
      "bind a=\"b \\\\ c\"").invoke "\"my \\\"own\\\" = word\"  d=e ").result = .ok 0 := by
    decide +kernel
  refine ⟨h_equipped, h_define, by decide +kernel, h_direct fun names h_error => ?_⟩
  exact nomatch h_result.symm.trans h_error

end Session

end PocketShell
