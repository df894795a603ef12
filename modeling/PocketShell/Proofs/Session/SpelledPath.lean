import PocketShell.Proofs.Path.Quoted
import PocketShell.Proofs.Session.Execution
import PocketShell.Proofs.Session.Registering
import PocketShell.Proofs.Token.SpelledWord
import PocketShell.Proofs.Tree.Creating
import PocketShell.Proofs.Tree.Numbers

/-!
# One spelling for several commands

The command `write` takes its path from the first word of its arguments, so quotes and backslashes
are gone when the path is looked up. Commands that have nothing but a path to read take it as it
stands, and there quotes and backslashes are part of it. A file that was written under a spelling is
therefore found under the same spelling by `cat` and `rm` exactly if the spelling denotes, as a
path, what its word denotes (`Session.written_found`). This is so for every word that is written as
it is, and for no word between quotes (`Path.segments_quotes_ne`).

Where the file is found, `cat` shows what was written, without the blanks at its ends, and `rm`
leaves the nodes that were there before (`Tree.WellFormed.removeNode_of_put`). Where it is not, `rm`
leaves the file alone.
-/

namespace PocketShell

/-- A text is read from the blob that was made of it. -/
theorem Blob.text_plain (text : String) : (plain text).text = text := by
  have h_bytes : String.fromUTF8? text.toUTF8 = some text := dif_pos text.isValidUTF8
  rw [Blob.text, Text.readUtf8, plain, h_bytes]

namespace Session

variable {session : Session}

theorem invoke_cat (h_cat : session.registry.find? "cat" = some (.builtin .cat)) (text : String) :
    session.invoke ("cat " ++ text) = session.cat (Text.trim text) :=
  @invoke_builtin session .cat h_cat text

theorem invoke_rm (h_rm : session.registry.find? "rm" = some (.builtin .rm)) (text : String) :
    session.invoke ("rm " ++ text) = session.rm (Text.trim text) :=
  @invoke_builtin session .rm h_rm text

/-! ### Finding a file -/

section Find

variable {path name : String} {id : Nat} {parent : Option Nat} {blob : Blob}
  (h_node : session.tree.node? id = some ⟨name, parent, .file blob⟩)

include h_node in
/-- A file that a path leads to is shown. -/
theorem cat_of_get (h_get : session.tree.get session.env path = .ok id) :
    session.cat path = .say session [.out blob.text] := by
  have h_blob : (session.tree.node? id).bind Node.blob? = some blob := by
    rw [h_node]
    rfl
  unfold cat
  rw [h_get]
  simp only [h_blob]

include h_node in
/-- A file that a path leads to is removed. -/
theorem rm_of_get (h_get : session.tree.get session.env path = .ok id) {tree : Tree}
    {removed : Node} (h_remove : session.tree.removeNode id = .ok (tree, removed)) :
    session.rm path = { session := { session with tree } } := by
  have h_file : (session.tree.node? id).any Node.isFile = true := by
    rw [h_node]
    rfl
  unfold rm
  rw [h_get]
  simp only [h_file, if_true, h_remove]

include h_node in
/-- A file that a path does not lead to is left alone. -/
theorem node?_rm (h : session.tree.WellFormed)
    (h_get : session.tree.get session.env path ≠ .ok id) :
    (session.rm path).session.tree.node? id = session.tree.node? id := by
  unfold rm
  split
  · rfl
  next other h_other =>
  split
  · next h_file =>
    split
    · next tree removed h_remove =>
      have h_ne : other ≠ id := fun h_eq => h_get (h_eq ▸ h_other)
      obtain ⟨h_root, h_removed, top, h_top, -⟩ := h.removed_of_removeNode h_remove
      have h_out : ¬ session.tree.Within other id := fun h_within =>
        h_ne (Tree.KeepsDirectories.eq_of_within_file
          (Tree.isDirectory_eq_false_of_isFile h_file) h_within).symm
      -- what is removed is in a directory, and a file is none
      have h_above : session.tree.parent? other ≠ some id := by
        intro h_parent
        obtain ⟨dir, h_dir, -, h_child⟩ := h.parent_of h_top h_root
        rw [Tree.parent?, h_top, Option.bind_some, h_dir, Option.some.injEq] at h_parent
        have h_directory := Tree.isDirectory_of_child (h_parent ▸ h_child)
        rw [Tree.isDirectory_eq_false_of_isFile (by rw [h_node]; rfl)] at h_directory
        cases h_directory
      exact h_removed.kept h_out h_above
    · rfl
  · rfl

end Find

/-! ### Writing a file and finding it again -/

/-- **A session with one file more.** The path leads to it, and nothing but the tree has changed. -/
structure Wrote (before : Session) (path content : String) (after : Session) (id : Nat) : Prop where
  frame : after = { before with tree := after.tree }
  get_eq : after.tree.get after.env path = .ok id
  content : (after.tree.node? id).bind Node.blob? = some (.plain content)
  new : before.tree.isLive id = false

/-- **Finding a file again.** After a line that made a file, the text leads to it: `cat` shows what
is in it, and `rm` leaves the nodes that were there before the line. -/
structure FindsAgain (before after : Session) (content text : String) : Prop where
  shown : after.invoke ("cat " ++ text) = .say after [.out content]
  removed : ∃ tree, after.invoke ("rm " ++ text) = { session := { after with tree } } ∧
    ∀ id, tree.node? id = before.tree.node? id

/-- What is left if `write` succeeds. -/
theorem exists_of_write_eq_ok (h : session.tree.WellFormed) {args : String}
    (h_ok : (session.write args).result = .ok 0) :
    ∃ path content tree id dir name, CommandLine.ofString? args = some ⟨path, content⟩ ∧
      session.write args = { session := { session with tree } } ∧
      session.tree.put dir (Node.file name (.plain content)) = .ok (tree, id) ∧
      tree.get session.env path = .ok id := by
  unfold write at h_ok ⊢
  cases h_line : CommandLine.ofString? args with
  | none =>
    rw [h_line] at h_ok
    cases h_ok
  | some line =>
    obtain ⟨path, content⟩ := line
    rw [h_line] at h_ok
    dsimp only at h_ok ⊢
    cases h_create : session.tree.createFile session.env path (.plain content) with
    | error e =>
      rw [h_create] at h_ok
      cases h_ok
    | ok made =>
      obtain ⟨tree, id⟩ := made
      obtain ⟨dir, name, h_put, h_get⟩ := h.of_createFile h_create
      exact ⟨path, content, tree, id, dir, name, rfl, rfl, h_put, h_get⟩

variable {word text : String}

/-- The commands `cat` and `rm` act on the file that was written, if the text denotes its path. -/
theorem findsAgain_of_resolve_eq (h : session.tree.WellFormed)
    (h_cat : session.registry.find? "cat" = some (.builtin .cat))
    (h_rm : session.registry.find? "rm" = some (.builtin .rm)) {path content : String}
    {tree : Tree} {id dir : Nat} {name : String}
    (h_put : session.tree.put dir (Node.file name (.plain content)) = .ok (tree, id))
    (h_get : tree.get session.env path = .ok id)
    (h_same : Tree.resolve session.env (Text.trim text) = Tree.resolve session.env path) :
    session.FindsAgain { session with tree } content text := by
  let after : Session := { session with tree }
  have h_node : after.tree.node? id = some ⟨name, some dir, .file (.plain content)⟩ :=
    (Tree.put_gained h_put).made
  have h_leads : after.tree.get after.env (Text.trim text) = .ok id := by
    rw [← h_get, Tree.get, Tree.get, h_same]
  constructor
  · rw [@invoke_cat after h_cat, cat_of_get h_node h_leads, Blob.text_plain]
  · obtain ⟨back, h_remove, h_nodes⟩ := h.removeNode_of_put h_put
    exact ⟨back, by rw [@invoke_rm after h_rm, rm_of_get h_node h_leads h_remove], h_nodes⟩

/-- **A file is found under the spelling of its path** exactly if the spelling denotes the path. Let
`write`, `cat` and `rm` name the built-in commands, and let a word be spelled in any way. If content
can be written under the spelling, then

* the word is the path of a new file that holds the content, without the blanks at its ends. Only if
  a blank stands behind a backslash at the end of the spelling, and nothing behind that, the path is
  what is left of the word without this blank;
* if the spelling denotes this path, `cat` shows the content and `rm` removes the file, and nothing
  is left of it;
* if not, `rm` leaves the file as it is;
* a spelling without quotes and backslashes denotes the path, and a spelling between quotes never
  does. -/
theorem written_found (h : session.tree.WellFormed)
    (h_write : session.registry.find? "write" = some (.builtin .write))
    (h_cat : session.registry.find? "cat" = some (.builtin .cat))
    (h_rm : session.registry.find? "rm" = some (.builtin .rm))
    (h_word : word ≠ "") (h_text : CommandLine.SpelledAs word text) (content : String)
    (h_ok : (session.invoke ("write " ++ text ++ " " ++ content)).result = .ok 0) :
    ∃ path after id,
      CommandLine.ofString? (Text.trim (text ++ " " ++ content)) =
        some ⟨path, Text.trim content⟩ ∧
      (path = word ∨ ¬ Text.Solid text ∧ Text.trim content = "") ∧
      session.invoke ("write " ++ text ++ " " ++ content) = { session := after } ∧
      session.Wrote path (Text.trim content) after id ∧
      (Tree.resolve session.env (Text.trim text) = Tree.resolve session.env path →
        session.FindsAgain after (Text.trim content) text) ∧
      (Tree.resolve session.env (Text.trim text) ≠ Tree.resolve session.env path →
        (after.invoke ("rm " ++ text)).session.tree.node? id = after.tree.node? id) ∧
      ('"' ∉ text.toList → '\\' ∉ text.toList →
        Tree.resolve session.env (Text.trim text) = Tree.resolve session.env path) ∧
      (text.toList.head? = some '"' →
        Tree.resolve session.env (Text.trim text) ≠ Tree.resolve session.env path) := by
  have h_line : "write " ++ text ++ " " ++ content =
      Builtin.write.name ++ " " ++ (text ++ " " ++ content) := by
    apply String.toList_inj.1
    simp [Builtin.name]
  have h_run : session.invoke ("write " ++ text ++ " " ++ content) =
      session.write (Text.trim (text ++ " " ++ content)) := by
    rw [h_line, invoke_builtin h_write]
    rfl
  rw [h_run] at h_ok ⊢
  obtain ⟨path, rest, tree, id, dir, name, h_args, h_reply, h_put, h_get⟩ :=
    exists_of_write_eq_ok h h_ok
  have h_read := h_text.ofString?_trim h_word content
  obtain ⟨h_path, rfl⟩ : (path = word ∨ ¬ Text.Solid text ∧ Text.trim content = "") ∧
      rest = Text.trim content := by
    rw [h_args] at h_read
    rcases h_read with h_all | ⟨h_solid, h_blank, h_rest⟩
    · obtain ⟨rfl, rfl⟩ := CommandLine.mk.inj (Option.some.inj h_all)
      exact ⟨.inl rfl, rfl⟩
    · exact ⟨.inr ⟨h_solid, h_blank⟩, (h_rest _ rfl).trans h_blank.symm⟩
  let after : Session := { session with tree }
  have h_made := (Tree.put_gained h_put).made
  refine ⟨path, after, id, h_args, h_path, h_reply, ⟨rfl, h_get, ?_, ?_⟩,
    findsAgain_of_resolve_eq h h_cat h_rm h_put h_get, ?_, ?_, ?_⟩
  · rw [h_made]
    rfl
  · -- the file has the first number that was never used
    rw [Tree.eq_size_of_put h_put, Tree.isLive, Tree.node?_size]
    rfl
  · intro h_other
    have h_after : after.tree.WellFormed := h.put (Node.isFresh_file _ _) h_put
    rw [@invoke_rm after h_rm]
    refine node?_rm h_made h_after fun h_leads => h_other ?_
    -- a file has one path only
    rw [Tree.get_eq_follow] at h_get h_leads
    exact congrArg Path.render (h_after.follow_inj h_leads h_get)
  · intro h_quote h_backslash
    obtain ⟨rfl, h_solid⟩ := h_text.eq_of_bare h_word h_quote h_backslash
    rw [h_path.resolve_right fun h_blank => h_blank.1 h_solid, h_solid.trim_eq]
  · intro h_head
    obtain ⟨body, rfl, h_body⟩ := h_text.quoted_of_head h_head
    have h_solid := Text.solid_quotes body
    rw [h_path.resolve_right fun h_blank => h_blank.1 h_solid, h_solid.trim_eq]
    intro h_same
    have h_segments := (Path.render_inj Path.isSegment_of_mem_segments
      Path.isSegment_of_mem_segments).1 h_same
    exact Path.segments_quotes_ne h_body session.env.cwd h_segments

/-- A name without special characters, where the file is found again, and a name between quotes,
where it is not. -/
theorem written_found_notes :
    ∃ session, start { seeded := false } = .ok session ∧ session.tree.WellFormed ∧
      session.registry.find? "write" = some (.builtin .write) ∧
      session.registry.find? "cat" = some (.builtin .cat) ∧
      session.registry.find? "rm" = some (.builtin .rm) ∧
      (∃ after, session.invoke "write notes  buy  potatoes " = { session := after } ∧
        session.FindsAgain after "buy  potatoes" "notes") ∧
      ∃ after id, session.invoke "write \"my notes\" hi" = { session := after } ∧
        session.Wrote "my notes" "hi" after id ∧
        (after.invoke "rm \"my notes\"").session.tree.node? id = after.tree.node? id := by
  obtain ⟨session, h_start⟩ : ∃ session, start { seeded := false } = .ok session := ⟨_, rfl⟩
  have h_tree : session.tree.WellFormed := by
    cases h_start
    exact Tree.WellFormed.empty
  have h_commands : session.registry.find? "write" = some (.builtin .write) ∧
      session.registry.find? "cat" = some (.builtin .cat) ∧
      session.registry.find? "rm" = some (.builtin .rm) := by
    cases h_start
    exact ⟨rfl, rfl, rfl⟩
  have h_bare :
      (session.invoke ("write " ++ "notes" ++ " " ++ " buy  potatoes ")).result = .ok 0 := by
    cases h_start
    rfl
  have h_quoted : (session.invoke ("write " ++ "\"my notes\"" ++ " " ++ "hi")).result = .ok 0 := by
    cases h_start
    rfl
  obtain ⟨h_write, h_cat, h_rm⟩ := h_commands
  have h_trim : Text.trim " buy  potatoes " = "buy  potatoes" ∧ Text.trim "hi" = "hi" := by
    decide +kernel
  refine ⟨session, h_start, h_tree, h_write, h_cat, h_rm, ?_, ?_⟩
  · have h_spelled : CommandLine.SpelledAs "notes" "notes" :=
      .unquoted (Scanner.Mode.spells_self (List.forall_iff_forall_mem.1 (by decide)))
    obtain ⟨path, after, id, -, -, h_after, -, h_finds, -, h_same, -⟩ :=
      written_found h_tree h_write h_cat h_rm (by decide) h_spelled _ h_bare
    have h_found := h_finds (h_same (by decide +kernel) (by decide +kernel))
    rw [h_trim.1] at h_found
    exact ⟨after, h_after, h_found⟩
  · have h_spelled : CommandLine.SpelledAs "my notes" ("\"" ++ "my notes" ++ "\"") :=
      .quoted (Scanner.Mode.spells_self (List.forall_iff_forall_mem.1 (by decide)))
    obtain ⟨path, after, id, -, h_path, h_after, h_wrote, -, h_left, -, h_other⟩ :=
      written_found h_tree h_write h_cat h_rm (by decide) h_spelled "hi" h_quoted
    rw [h_trim.2] at h_path h_wrote
    obtain rfl := h_path.resolve_right fun h_blank => absurd h_blank.2 (by decide)
    exact ⟨after, id, h_after, h_wrote, h_left (h_other (by decide +kernel))⟩

/-- **Lost between quotes.** The file that was written under a name with a blank is not found under
the same spelling, but under the name without quotes. -/
theorem written_lost :
    ∃ session after, start { seeded := false } = .ok session ∧
      session.invoke "write \"my notes\" hi" = { session := after } ∧
      after.invoke "cat my notes" = .say after [.out "hi"] ∧
      after.invoke "cat \"my notes\"" = .fail after (.noSuchNode "\"my notes\"" "") ∧
      after.invoke "rm \"my notes\"" = .fail after (.noSuchNode "\"my notes\"" "") := by
  obtain ⟨session, h_start⟩ : ∃ session, start { seeded := false } = .ok session := ⟨_, rfl⟩
  refine ⟨session, (session.invoke "write \"my notes\" hi").session, h_start, ?_, ?_, ?_, ?_⟩
  all_goals cases h_start; rfl

end Session

end PocketShell
