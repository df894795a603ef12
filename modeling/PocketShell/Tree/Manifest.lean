import PocketShell.Json.Reader
import PocketShell.Tree.Edit

/-!
# Manifests

A **manifest** describes a tree: directories with their children, and files with a `data:` address
that spells their contents. In a JSON text a directory is an object with a `name` and an object of
`children`, a file an object with a `name` and a `blob`. The keys under which children are written
do not matter, except that a key written twice counts once, with its last value in its first place.
Members of other names are ignored.

Names are templates: references to variables in them are replaced when a tree is built.

* `Manifest.ofJson?`, `Manifest.parse` — the manifest that a JSON text describes;
* `Manifest.toTree`, `Manifest.build` — the tree that a manifest or its text describes;
* `Manifest.standardText`, `Manifest.standard` — the manifest of a new session, as it is written and
  as it is read.
-/

namespace PocketShell

/-- **Manifests.** -/
inductive Manifest where
  | directory (name : String) (children : List Manifest)
  /-- A file, with the address that spells its contents. -/
  | file (name url : String)

namespace Manifest

mutual

/-- Whether two manifests are the same can be decided. -/
def decEq : (manifest other : Manifest) → Decidable (manifest = other)
  | .directory name children, .directory name' children' =>
    match decEqAll children children' with
    | isTrue h => decidable_of_iff (name = name') (by rw [h]; simp)
    | isFalse h => isFalse fun h_eq => h (Manifest.directory.inj h_eq).2
  | .file name url, .file name' url' => decidable_of_iff (name = name' ∧ url = url') (by simp)
  | .directory _ _, .file _ _ => isFalse nofun
  | .file _ _, .directory _ _ => isFalse nofun

def decEqAll : (manifests others : List Manifest) → Decidable (manifests = others)
  | [], [] => isTrue rfl
  | [], _ :: _ => isFalse nofun
  | _ :: _, [] => isFalse nofun
  | first :: rest, first' :: rest' =>
    match decEq first first', decEqAll rest rest' with
    | isTrue h, isTrue h_rest => isTrue (by rw [h, h_rest])
    | isFalse h, _ => isFalse fun h_eq => h (List.cons.inj h_eq).1
    | _, isFalse h => isFalse fun h_eq => h (List.cons.inj h_eq).2

end

instance : DecidableEq Manifest := decEq

/-! ### Reading -/

/-- What a JSON value may be read as, wherever it stands. -/
structure Reading where
  text? : Option String := none
  children? : Option (List Manifest) := none
  node? : Option Manifest := none

/-- The reading of the member of a name, if there is exactly one. -/
def only? (members : List (String × Reading)) (name : String) : Option Reading :=
  match members.filter fun member => member.1 = name with
  | [member] => some member.2
  | _ => none

/-- The members of an object as children: all of them must be nodes. Of two members of one name the
last counts, in the place of the first. -/
def childrenOf? (members : List (String × Reading)) : Option (List Manifest) := do
  let nodes ← members.mapM fun member => member.2.node?.map fun node => (member.1, node)
  -- `insert` keeps the place of a name and replaces what it is bound to
  let last := nodes.foldl (fun map node => map.insert node.1 node.2) OrderedMap.empty
  return last.values

/-- The members of an object as a node: a directory if they can be, else a file. -/
def nodeOf? (members : List (String × Reading)) : Option Manifest := do
  let name ← (← only? members "name").text?
  match (only? members "children").bind Reading.children? with
  | some children => return .directory name children
  | none => return .file name (← (← only? members "blob").text?)

mutual

/-- Everything that a JSON value may be read as. -/
def read : Json → Reading
  | .string text => { text? := some text }
  | .object members =>
    let members := readMembers members
    { children? := childrenOf? members, node? := nodeOf? members }
  | _ => {}

/-- The readings of the members of an object. -/
def readMembers : List (String × Json) → List (String × Reading)
  | [] => []
  | (name, value) :: members => (name, read value) :: readMembers members

end

/-- **The manifest that a JSON value describes.** -/
def ofJson? (value : Json) : Option Manifest :=
  (read value).node?

/-- **Reading a manifest** from a JSON text. -/
def parse (text : String) : Except Error Manifest :=
  match (Json.read? text).bind ofJson? with
  | some manifest => .ok manifest
  | none => .error .malformedManifest

/-! ### Building -/

mutual

/-- Attaches the node that a manifest describes, with everything below it. -/
def graft (env : Environment) (tree : Tree) (parent : Nat) : Manifest → Except Error Tree
  | .directory name children =>
    match tree.put parent (Node.directory (env.interpolate name)) with
    | .ok (tree, id) => graftAll env tree id children
    | .error e => .error e
  | .file name url =>
    match DataUrl.parse url with
    | .ok blob =>
      match tree.put parent (Node.file (env.interpolate name) blob) with
      | .ok (tree, _) => .ok tree
      | .error e => .error e
    | .error fault => .error (.dataUrl fault)

/-- Attaches the nodes of a list of manifests, one after the other. -/
def graftAll (env : Environment) (tree : Tree) (parent : Nat) :
    List Manifest → Except Error Tree
  | [] => .ok tree
  | manifest :: rest =>
    match graft env tree parent manifest with
    | .ok tree => graftAll env tree parent rest
    | .error e => .error e

end

/-- **Building a tree.** The manifest must describe a directory, which becomes the root; its own
name does not matter. -/
def toTree (env : Environment) : Manifest → Except Error Tree
  | .directory _ children => graftAll env Tree.empty Tree.root children
  | .file _ _ => .error .manifestRootNotDirectory

/-- **Building a tree** from the text of a manifest. -/
def build (env : Environment) (text : String) : Except Error Tree := do
  (← parse text).toTree env

/-! ### The standard tree -/

/-- The address of the text that greets the user. -/
def greetingUrl : String :=
  "data:text/plain;base64,UG90YXRPUyBrZWVwcyBldmVyeXRoaW5nIGluIG1lbW9yeS4gTm90aGluZyB5b3Ug" ++
    "d3JpdGUgc3Vydml2ZXMgYSByZXN0YXJ0LgoKVHJ5IHRoZXNlIHRvIGdldCB5b3VyIGJlYXJpbmdz" ++
    "OgoKYGBgCmhlbHAKbHMgLwpjYXQgL3RtcC90ZXN0LnR4dApjZCAvaG9tZS8kVVNFUgpgYGAK"

/-- The text of the manifest of a new session. -/
def standardText : String :=
  "\x7b
    \"name\": \"\",
    \"children\": \x7b
        \"apps\": \x7b
            \"name\": \"apps\",
            \"children\": \x7b
                \"README.md\": \x7b
                    \"name\": \"README.md\",
                    \"blob\": \"" ++ greetingUrl ++ "\"
                \x7d
            \x7d
        \x7d,
        \"home\": \x7b
            \"name\": \"home\",
            \"children\": \x7b
                \"$USER\": \x7b
                    \"name\": \"$USER\",
                    \"children\": \x7b\x7d
                \x7d
            \x7d
        \x7d,
        \"tmp\": \x7b
            \"name\": \"tmp\",
            \"children\": \x7b
                \"test.txt\": \x7b
                    \"name\": \"test.txt\",
                    \"blob\": \"data:text/plain;base64,aGVsbG8h\"
                \x7d
            \x7d
        \x7d
    \x7d
\x7d
"

/-- **The manifest of a new session:** a text to read, the home directory of the user, and a
directory for anything else. -/
def standard : Manifest :=
  .directory "" [
    .directory "apps" [.file "README.md" greetingUrl],
    .directory "home" [.directory "$USER" []],
    .directory "tmp" [.file "test.txt" "data:text/plain;base64,aGVsbG8h"]]

end Manifest

end PocketShell
