import PocketShell.Proofs.Environment.References
import PocketShell.Proofs.Tree.Building

/-!
# The standard tree

The tree of a new session is built from a text. What is read from the text is `Manifest.standard`
(`Manifest.parse_standardText`), and every environment builds a tree from it
(`Manifest.exists_toTree_standard`): the only reference in it is the name of one directory, which is
alone in its parent. What the tree has in it is `Manifest.listing_standard`.
-/

namespace PocketShell.Manifest

/-- The text that greets the user of a new session. -/
def greeting : String :=
  "PotatOS keeps everything in memory. Nothing you write survives a restart.

Try these to get your bearings:

```
help
ls /
cat /tmp/test.txt
cd /home/$USER
```
"

/-! ### Reading the texts -/

theorem toList_append_of_eq {front back : String} {first last : List Char}
    (h_front : front.toList = first) (h_back : back.toList = last) :
    (front ++ back).toList = first ++ last := by
  rw [String.toList_append, h_front, h_back]

set_option maxRecDepth 4096 in
/-- The address of the greeting spells the greeting. -/
theorem parse_greetingUrl : DataUrl.parse greetingUrl = .ok (.plain greeting) := by
  -- the characters are spelled out first, since decoding them takes long
  have h_chars : greetingUrl.toList = _ :=
    toList_append_of_eq (toList_append_of_eq String.toList_ofList String.toList_ofList)
      String.toList_ofList
  unfold DataUrl.parse
  rw [h_chars]
  decide +kernel

set_option maxRecDepth 4096 in
/-- **The standard manifest** is what is read from its text. -/
theorem parse_standardText : parse standardText = .ok standard := by
  have h_url : greetingUrl.toList = _ :=
    toList_append_of_eq (toList_append_of_eq String.toList_ofList String.toList_ofList)
      String.toList_ofList
  have h_chars : standardText.toList = _ :=
    toList_append_of_eq (toList_append_of_eq String.toList_ofList h_url) String.toList_ofList
  have h_read : (Json.read? standardText).bind ofJson? = some standard := by
    unfold Json.read? Json.lexemes?
    rw [h_chars]
    decide +kernel
  rw [parse, h_read]

theorem build_standardText (env : Environment) :
    build env standardText = standard.toTree env := by
  unfold build
  rw [parse_standardText]
  exact bind_ok standard (toTree env)

theorem parse_helloUrl :
    DataUrl.parse "data:text/plain;base64,aGVsbG8h" = .ok (.plain "hello!") := by
  decide +kernel

/-! ### Building the tree -/

variable {env : Environment}

/-- No name but the one of the home directory is a reference. -/
theorem interpolate_standard (env : Environment) :
    env.interpolate "apps" = "apps" ∧ env.interpolate "README.md" = "README.md" ∧
      env.interpolate "home" = "home" ∧ env.interpolate "tmp" = "tmp" ∧
      env.interpolate "test.txt" = "test.txt" := by
  have h_plain {name : String} (h : '$' ∉ name.toList) : env.interpolate name = name :=
    Environment.interpolate_of_notMem h env
  exact ⟨h_plain (by decide +kernel), h_plain (by decide +kernel), h_plain (by decide +kernel),
    h_plain (by decide +kernel), h_plain (by decide +kernel)⟩

/-- **The standard tree can be built** in every environment. -/
theorem exists_toTree_standard (env : Environment) : ∃ tree, standard.toTree env = .ok tree := by
  refine (toTree_meets env "" _).exists_ok_iff.2 ?_
  obtain ⟨h_apps, h_readme, h_home, h_tmp, h_test⟩ := interpolate_standard env
  have h_directory {above elders : List String} {name : String} {children : List Manifest} :
      Place.fault? env ⟨above, elders, .directory name children⟩ =
        Place.clash? env ⟨above, elders, .directory name children⟩ := rfl
  simp [placesAll, places, h_directory, Place.fault?_file parse_greetingUrl,
    Place.fault?_file parse_helloUrl, Place.clash?, Place.name, name, h_apps, h_readme, h_home,
    h_tmp, h_test]

/-- **The standard tree,** in preorder. -/
theorem listing_standard {tree : Tree} (h_build : standard.toTree env = .ok tree) {user : String}
    (h_user : env.bindings.find? Environment.userName = some user) :
    tree.WellFormed ∧
      tree.listing = [some ([""], .directory), some (["apps", ""], .directory),
        some (["README.md", "apps", ""], .file (.plain greeting)), some (["home", ""], .directory),
        some ([user, "home", ""], .directory), some (["tmp", ""], .directory),
        some (["test.txt", "tmp", ""], .file (.plain "hello!"))] := by
  have h_dollar : "$USER" = "$" ++ Environment.userName := by decide
  have h_reference : env.interpolate "$USER" = user := by
    rw [h_dollar]
    exact Environment.interpolate_reference (by decide) Environment.isNameChar_of_mem_userName
      h_user
  have h_meets : Meets env Tree.empty Tree.root (placesAll env [""] [] _) (.ok tree) :=
    h_build ▸ toTree_meets env "" _
  refine ⟨h_meets.2.1, h_meets.listing_eq.trans ?_⟩
  obtain ⟨h_apps, h_readme, h_home, h_tmp, h_test⟩ := interpolate_standard env
  simp only [placesAll, places, List.append_nil, List.nil_append, List.cons_append, List.map_cons,
    List.map_nil, Place.item?_directory, Place.item?_file parse_greetingUrl,
    Place.item?_file parse_helloUrl, h_reference, h_apps, h_readme, h_home, h_tmp, h_test]

end PocketShell.Manifest
