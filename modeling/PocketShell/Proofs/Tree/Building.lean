import PocketShell.Proofs.Tree.Listing

/-!
# Building a tree from a manifest

What a manifest describes can be said without building anything. Its nodes are walked through in
preorder, and for each of them the `Place` is noted: the node, the names on the way up from the
directory that it goes into, and the names of the siblings that are there before it. A place is at
**fault** if its address cannot be read or, this being looked at second, if one of the siblings has
its name (`Place.fault?`).

Building does the same, in the same order. It stops at the first place that is at fault, with the
fault for its error, and if there is none it makes the tree that is listed like the places
(`Manifest.toTree_spec`). The proof is one induction over manifests for both outcomes: `Meets` says
what attaching nodes has to come to, given their places, and `graft_meets` that it does. The
invariant is that the names in the directory are the elder siblings of the node that comes next.
-/

namespace PocketShell

open PocketShell.Tree (Grown HasNames)

namespace Manifest

def name : Manifest → String
  | .directory name _ => name
  | .file name _ => name

mutual

/-- **The nodes of a manifest** in preorder. -/
def nodes : Manifest → List Manifest
  | .directory name children => .directory name children :: nodesAll children
  | .file name url => [.file name url]

def nodesAll : List Manifest → List Manifest
  | [] => []
  | manifest :: rest => nodes manifest ++ nodesAll rest

end

/-- **Places.** A node of a manifest, with what matters about where it stands. The names are as the
tree has them, with the variables in them replaced. -/
structure Place where
  /-- The names on the way up from the directory that the node goes into. -/
  above : List String
  /-- The names of the siblings that are there before the node. -/
  elders : List String
  node : Manifest

mutual

/-- **The places of a manifest** in preorder, given the place of its first node. -/
def places (env : Environment) (above elders : List String) : Manifest → List Place
  | .directory name children =>
    ⟨above, elders, .directory name children⟩ ::
      placesAll env (env.interpolate name :: above) [] children
  | .file name url => [⟨above, elders, .file name url⟩]

def placesAll (env : Environment) (above elders : List String) : List Manifest → List Place
  | [] => []
  | manifest :: rest =>
    places env above elders manifest ++
      placesAll env above (elders ++ [env.interpolate manifest.name]) rest

end

namespace Place

/-- The name that the tree has for the node. -/
def name (env : Environment) (place : Place) : String :=
  env.interpolate place.node.name

/-- What is found at the place: a directory, or a file with the blob of its address. -/
def entry? (place : Place) : Option Entry :=
  match place.node with
  | .directory _ _ => some .directory
  | .file _ url => (DataUrl.parse url).toOption.map .file

/-- The place in a listing. -/
def item? (env : Environment) (place : Place) : Option (List String × Entry) :=
  place.entry?.map fun entry => (place.name env :: place.above, entry)

/-- A directory is listed as it stands. -/
theorem item?_directory {env : Environment} {above elders : List String} {name : String}
    {children : List Manifest} :
    item? env ⟨above, elders, .directory name children⟩ =
      some (env.interpolate name :: above, .directory) := rfl

/-- A file is listed with the blob that its address spells. -/
theorem item?_file {env : Environment} {above elders : List String} {name url : String}
    {blob : Blob} (h_url : DataUrl.parse url = .ok blob) :
    item? env ⟨above, elders, .file name url⟩ =
      some (env.interpolate name :: above, .file blob) := by
  simp only [item?, entry?, h_url, Place.name, Manifest.name, Except.toOption, Option.map_some]

/-- A sibling that is there before has the name. -/
def clash? (env : Environment) (place : Place) : Option Error :=
  if place.name env ∈ place.elders then
    some (.duplicateName (place.above.headD "") (place.name env))
  else none

/-- **The fault of a place,** if there is one: first its address, then its name. -/
def fault? (env : Environment) (place : Place) : Option Error :=
  match place.node with
  | .directory _ _ => place.clash? env
  | .file _ url =>
    match DataUrl.parse url with
    | .error fault => some (.dataUrl fault)
    | .ok _ => place.clash? env

/-- A file whose address can be read is at fault for its name only. -/
theorem fault?_file {env : Environment} {above elders : List String} {name url : String}
    {blob : Blob} (h_url : DataUrl.parse url = .ok blob) :
    fault? env ⟨above, elders, .file name url⟩ = clash? env ⟨above, elders, .file name url⟩ := by
  simp only [fault?, h_url]

end Place

/-! ### What building comes to -/

/-- **What attaching nodes to a directory has to come to,** given their places: the first fault, or
a tree that has grown by what the places list. -/
def Meets (env : Environment) (tree : Tree) (dir : Nat) (places : List Place) :
    Except Error Tree → Prop
  | .error e => places.findSome? (Place.fault? env) = some e
  | .ok after =>
    places.findSome? (Place.fault? env) = none ∧ after.WellFormed ∧
      ∃ new, Grown tree dir new after ∧
        new.flatMap after.listingFrom = places.map (Place.item? env)

section Meets

variable {env : Environment} {tree middle : Tree} {dir : Nat} {first rest : List Place}

/-- Nothing is attached. -/
theorem Meets.nil (h : tree.WellFormed) : Meets env tree dir [] (.ok tree) :=
  ⟨rfl, h, [], .refl, rfl⟩

/-- Attaching succeeds exactly if no place is at fault. -/
theorem Meets.exists_ok_iff {result : Except Error Tree} (h : Meets env tree dir first result) :
    (∃ after, result = .ok after) ↔ first.findSome? (Place.fault? env) = none := by
  cases result with
  | error e =>
    have h_fault : first.findSome? (Place.fault? env) = some e := h
    simp [h_fault]
  | ok after => simp [h.1]

theorem Meets.eq_error_iff {result : Except Error Tree} (h : Meets env tree dir first result)
    {e : Error} : result = .error e ↔ first.findSome? (Place.fault? env) = some e := by
  cases result with
  | error e' =>
    have h_fault : first.findSome? (Place.fault? env) = some e' := h
    simp [h_fault]
  | ok after => simp [h.1]

/-- A fault further up is the first one. -/
theorem Meets.append_error {e : Error} (h : Meets env tree dir first (.error e)) :
    Meets env tree dir (first ++ rest) (.error e) := by
  have h_first : first.findSome? (Place.fault? env) = some e := h
  show (first ++ rest).findSome? (Place.fault? env) = some e
  rw [List.findSome?_append, h_first, Option.some_or]

/-- **Attaching some nodes behind others.** -/
theorem Meets.append (h : Meets env tree dir first (.ok middle)) {result : Except Error Tree}
    (h_rest : Meets env middle dir rest result) : Meets env tree dir (first ++ rest) result := by
  obtain ⟨h_none, h_middle, elder, h_grown, h_listing⟩ := h
  have h_append : (first ++ rest).findSome? (Place.fault? env) =
      rest.findSome? (Place.fault? env) := by
    rw [List.findSome?_append, h_none, Option.none_or]
  cases result with
  | error e => exact h_append.trans h_rest
  | ok after =>
    obtain ⟨h_none', h_after, new, h_grown', h_listing'⟩ := h_rest
    refine ⟨h_append.trans h_none', h_after, elder ++ new, h_grown.trans h_grown', ?_⟩
    rw [List.flatMap_append, List.map_append, ← h_listing, ← h_listing']
    congr 1
    refine List.flatMap_congr fun id h_mem => ?_
    -- the elder siblings are later than the directory, and nothing is attached below them
    have h_child : id ∈ middle.children dir := by
      rw [h_grown.children_eq]
      exact List.mem_append_right _ h_mem
    obtain ⟨h_lt, h_size⟩ := h_middle.lt_size_of_mem_children h_child
    exact h_grown'.listingFrom_eq h_middle h_after h_lt h_size

/-- **Attaching a node and then others below it.** -/
theorem Meets.below {place : Place} (h_fine : place.fault? env = none) {child : Node}
    (h_fresh : child.IsFresh) (h_put : tree.put dir child = .ok (middle, tree.slots.size))
    (h_above : tree.ascent? dir = some place.above)
    (h_item : place.item? env = some (child.name :: place.above, child.entry))
    {result : Except Error Tree} (h_inside : Meets env middle tree.slots.size rest result) :
    Meets env tree dir (place :: rest) result := by
  have h_cons : (place :: rest).findSome? (Place.fault? env) =
      rest.findSome? (Place.fault? env) := by
    rw [List.findSome?_cons, h_fine]
  cases result with
  | error e => exact h_cons.trans h_inside
  | ok after =>
    obtain ⟨h_none, h_after, new, h_grown, h_listing⟩ := h_inside
    have h_dir : dir < tree.slots.size := Tree.lt_size_of_put h_put
    have h_id : tree.slots.size < middle.slots.size :=
      Tree.lt_size_of_node? (Tree.node?_of_put h_put)
    refine ⟨h_cons.trans h_none, h_after, [_],
      (Grown.put h_fresh h_put).inside h_grown h_dir (Nat.le_refl _), ?_⟩
    rw [List.flatMap_singleton, h_after.listingFrom_eq, h_grown.item?_eq h_id,
      Tree.item?_of_put h_fresh h_put h_above, h_grown.children_eq,
      Tree.children_of_put h_fresh h_put, List.nil_append, h_listing, List.map_cons, h_item]

end Meets

/-! ### Grafting -/

section Grafting

variable {env : Environment}

/-- **Putting a node into a directory** is refused if a sibling has its name. -/
theorem put_cases {tree : Tree} (h : tree.WellFormed) {dir : Nat} {place : Place}
    (h_names : tree.HasNames dir place.elders) (h_above : tree.ascent? dir = some place.above)
    {child : Node} (h_fresh : child.IsFresh) (h_name : child.name = place.name env) :
    (∃ e, place.clash? env = some e ∧ tree.put dir child = .error e) ∨
      ∃ after, place.clash? env = none ∧ tree.put dir child = .ok (after, tree.slots.size) ∧
        after.WellFormed ∧ after.HasNames dir (place.elders ++ [place.name env]) := by
  by_cases h_taken : place.name env ∈ place.elders
  · left
    refine ⟨_, if_pos h_taken, ?_⟩
    rw [h_names.put_eq_error (h_name ▸ h_taken), Tree.name_of_ascent? h_above, h_name]
  · right
    obtain ⟨after, h_put, h_after⟩ := h_names.exists_put (h_name ▸ h_taken)
    exact ⟨after, if_neg h_taken, h_put, h.put h_fresh h_put, h_name ▸ h_after⟩

mutual

/-- **Grafting a manifest** stops at its first fault, or attaches what its places list. The
directory has one name more then. -/
theorem graft_meets {tree : Tree} (h : tree.WellFormed) {dir : Nat} {above elders : List String}
    (h_names : tree.HasNames dir elders) (h_above : tree.ascent? dir = some above)
    (manifest : Manifest) :
    Meets env tree dir (places env above elders manifest) (graft env tree dir manifest) ∧
      ∀ after, graft env tree dir manifest = .ok after →
        after.HasNames dir (elders ++ [env.interpolate manifest.name]) := by
  cases manifest with
  | file name url =>
    rw [graft, places]
    cases h_url : DataUrl.parse url with
    | error fault => simp [Meets, Place.fault?, h_url]
    | ok blob =>
      have h_fresh := Node.isFresh_file (env.interpolate name) blob
      rcases @put_cases env tree h dir ⟨above, elders, .file name url⟩ h_names h_above _ h_fresh rfl
        with ⟨e, h_clash, h_put⟩ | ⟨after, h_clash, h_put, h_after, h_after_names⟩
      · simp [Meets, h_put, Place.fault?, h_url, h_clash]
      · simp only [h_put]
        refine ⟨Meets.below ?_ h_fresh h_put h_above ?_ (.nil h_after), ?_⟩
        · simp [Place.fault?, h_url, h_clash]
        · exact Place.item?_file h_url
        · rintro _ ⟨⟩
          exact h_after_names
  | directory name children =>
    rw [graft, places]
    have h_fresh := Node.isFresh_directory (env.interpolate name)
    rcases @put_cases env tree h dir ⟨above, elders, .directory name children⟩ h_names h_above _
      h_fresh rfl with ⟨e, h_clash, h_put⟩ | ⟨middle, h_clash, h_put, h_middle, h_middle_names⟩
    · simp [Meets, h_put, Place.fault?, h_clash]
    · -- the directory is there, and its children are attached to it
      obtain ⟨h_inside, -⟩ := graftAll_meets h_middle (Tree.hasNames_of_put h_put)
        (Tree.ascent?_of_put h_fresh h_put h_above) children
      simp only [h_put]
      refine ⟨Meets.below (by exact h_clash) h_fresh h_put h_above rfl h_inside, ?_⟩
      intro after h_after
      rw [h_after] at h_inside
      obtain ⟨-, -, new, h_grown, -⟩ := h_inside
      exact h_middle_names.kept h_grown (Nat.ne_of_lt h_names.lt_size)

theorem graftAll_meets {tree : Tree} (h : tree.WellFormed) {dir : Nat}
    {above elders : List String} (h_names : tree.HasNames dir elders)
    (h_above : tree.ascent? dir = some above) (manifests : List Manifest) :
    Meets env tree dir (placesAll env above elders manifests) (graftAll env tree dir manifests) ∧
      ∀ after, graftAll env tree dir manifests = .ok after →
        after.HasNames dir
          (elders ++ manifests.map fun manifest => env.interpolate manifest.name) := by
  cases manifests with
  | nil =>
    rw [graftAll, placesAll, List.map_nil, List.append_nil]
    refine ⟨.nil h, ?_⟩
    rintro _ ⟨⟩
    exact h_names
  | cons manifest rest =>
    obtain ⟨h_first, h_first_names⟩ := graft_meets h h_names h_above manifest
    rw [graftAll, placesAll]
    cases h_graft : graft env tree dir manifest with
    | error e =>
      rw [h_graft] at h_first
      exact ⟨h_first.append_error, fun _ h_after => nomatch h_after⟩
    | ok middle =>
      rw [h_graft] at h_first
      have ⟨_, h_middle, new, h_grown, _⟩ := h_first
      have h_middle_above : middle.ascent? dir = some above :=
        (h_grown.ascent?_eq h_names.lt_size).trans h_above
      obtain ⟨h_rest, h_rest_names⟩ :=
        graftAll_meets h_middle (h_first_names middle h_graft) h_middle_above rest
      refine ⟨h_first.append h_rest, fun after h_after => ?_⟩
      rw [List.map_cons, List.append_cons]
      exact h_rest_names after h_after

end

end Grafting

/-! ### Faults -/

section Faults

variable {env : Environment}

/-- **Fine nodes:** files with an address that can be read, and directories without two children of
one name. -/
def Fine (env : Environment) : Manifest → Prop
  | .directory _ children => (children.map fun child => env.interpolate child.name).Nodup
  | .file _ url => ∃ blob, DataUrl.parse url = .ok blob

theorem forall_fine_iff {manifests : List Manifest} :
    (∀ node ∈ manifests, Fine env node) ↔
      (∀ name url, .file name url ∈ manifests → ∃ blob, DataUrl.parse url = .ok blob) ∧
        ∀ name children, .directory name children ∈ manifests →
          (children.map fun child => env.interpolate child.name).Nodup := by
  constructor
  · intro h
    exact ⟨fun name url h_mem => h _ h_mem, fun name children h_mem => h _ h_mem⟩
  · rintro ⟨h_files, h_directories⟩ node h_mem
    cases node with
    | file name url => exact h_files name url h_mem
    | directory name children => exact h_directories name children h_mem

theorem Place.clash?_eq_none_iff {place : Place} :
    place.clash? env = none ↔ place.name env ∉ place.elders := by
  unfold clash?
  split <;> simp_all

mutual

/-- **A manifest is without fault** if its nodes are fine, and its own name is free. -/
theorem faultless_iff {above elders : List String} (manifest : Manifest) :
    (places env above elders manifest).findSome? (Place.fault? env) = none ↔
      env.interpolate manifest.name ∉ elders ∧ ∀ node ∈ nodes manifest, Fine env node := by
  cases manifest with
  | file name url =>
    rw [places, nodes, List.findSome?_singleton, List.forall_mem_singleton, Place.fault?, Fine]
    cases h_url : DataUrl.parse url with
    | error fault => simp [h_url]
    | ok blob =>
      simp only [h_url]
      rw [Place.clash?_eq_none_iff]
      simp [Place.name]
  | directory name children =>
    have h_inside := @faultlessAll_iff (env.interpolate name :: above) [] children
    rw [List.findSome?_eq_none_iff] at h_inside ⊢
    rw [places, nodes, List.forall_mem_cons, List.forall_mem_cons, h_inside]
    show (Place.clash? env _ = none ∧ _) ↔ _
    rw [Place.clash?_eq_none_iff]
    simp [Place.name, Fine]

theorem faultlessAll_iff {above elders : List String} (manifests : List Manifest) :
    (placesAll env above elders manifests).findSome? (Place.fault? env) = none ↔
      (∀ manifest ∈ manifests, env.interpolate manifest.name ∉ elders) ∧
        (manifests.map fun manifest => env.interpolate manifest.name).Nodup ∧
        ∀ node ∈ nodesAll manifests, Fine env node := by
  cases manifests with
  | nil => simp [placesAll, nodesAll]
  | cons manifest rest =>
    have h_first := @faultless_iff above elders manifest
    have h_rest := @faultlessAll_iff above (elders ++ [env.interpolate manifest.name]) rest
    rw [placesAll, nodesAll, List.findSome?_append, Option.or_eq_none_iff, h_first, h_rest]
    -- a name is free for a later sibling if it is free now and is not taken in between
    have h_free : (∀ other ∈ rest, env.interpolate other.name ∉
        elders ++ [env.interpolate manifest.name]) ↔
          (∀ other ∈ rest, env.interpolate other.name ∉ elders) ∧
            env.interpolate manifest.name ∉ rest.map fun other => env.interpolate other.name := by
      simp [not_or, forall_and]
    rw [h_free, List.forall_mem_cons, List.map_cons, List.nodup_cons, List.forall_mem_append]
    tauto

end

end Faults

/-! ### Trees of manifests -/

section Building

variable (env : Environment)

mutual

/-- The places of a manifest are its nodes, in preorder. -/
theorem nodes_places (above elders : List String) (manifest : Manifest) :
    (places env above elders manifest).map Place.node = nodes manifest := by
  cases manifest with
  | file name url => rw [places, nodes, List.map_singleton]
  | directory name children => rw [places, nodes, List.map_cons, nodes_placesAll]

theorem nodes_placesAll (above elders : List String) (manifests : List Manifest) :
    (placesAll env above elders manifests).map Place.node = nodesAll manifests := by
  cases manifests with
  | nil => rw [placesAll, nodesAll, List.map_nil]
  | cons manifest rest =>
    rw [placesAll, nodesAll, List.map_append, nodes_places, nodes_placesAll]

end

theorem hasNames_empty : Tree.empty.HasNames Tree.root [] :=
  ⟨Node.directory "", ∅, rfl, rfl, rfl⟩

/-- Building comes to what attaching the children to an empty root comes to. -/
theorem toTree_meets (name : String) (children : List Manifest) :
    Meets env Tree.empty Tree.root (placesAll env [""] [] children)
      (toTree env (.directory name children)) := by
  have h_empty := Tree.WellFormed.empty
  exact (graftAll_meets h_empty hasNames_empty h_empty.ascent?_root children).1

/-- A tree that has grown from the empty one is listed like the places, behind the root. -/
theorem Meets.listing_eq {env : Environment} {places : List Place} {tree : Tree}
    (h : Meets env Tree.empty Tree.root places (.ok tree)) :
    tree.listing = some ([""], .directory) :: places.map (Place.item? env) := by
  obtain ⟨-, h_wellFormed, new, h_grown, h_listing⟩ := h
  have h_item : Tree.empty.item? Tree.root = some ([""], .directory) := by
    rw [Tree.item?, Tree.WellFormed.empty.ascent?_root]
    rfl
  have h_children : Tree.empty.children Tree.root = [] := rfl
  show tree.listingFrom Tree.root = _
  rw [h_wellFormed.listingFrom_eq, h_grown.item?_eq (by decide), h_item, h_grown.children_eq,
    h_children, List.nil_append, h_listing]

/-- **A manifest builds exactly its tree.** Let its root be a directory, and take the places of the
other nodes in preorder.

* A tree is built exactly if the addresses of all files can be read and no directory has two
  children of one name;
* the tree is listed like the places, behind the root: the nodes in preorder under their names, and
  files with the blobs of their addresses;
* the error, if no tree is built, is the first fault of a place. -/
theorem toTree_spec (name : String) (children : List Manifest) :
    let manifest := Manifest.directory name children
    let places := placesAll env [""] [] children
    manifest.nodes = manifest :: places.map Place.node ∧
      ((∃ tree, manifest.toTree env = .ok tree) ↔
        (∀ name url, .file name url ∈ manifest.nodes → ∃ blob, DataUrl.parse url = .ok blob) ∧
          ∀ name children, .directory name children ∈ manifest.nodes →
            (children.map fun child => env.interpolate child.name).Nodup) ∧
      (∀ tree, manifest.toTree env = .ok tree →
        tree.listing = some ([""], .directory) :: places.map (Place.item? env)) ∧
      ∀ e, manifest.toTree env = .error e ↔ places.findSome? (Place.fault? env) = some e := by
  intro manifest places
  have h_meets : Meets env Tree.empty Tree.root places (manifest.toTree env) :=
    toTree_meets env name children
  have h_nodes : manifest.nodes = manifest :: places.map Place.node := by
    rw [nodes_placesAll, nodes]
  refine ⟨h_nodes, ?_, fun tree h_tree => ?_, fun e => h_meets.eq_error_iff⟩
  · rw [h_meets.exists_ok_iff, faultlessAll_iff, ← forall_fine_iff, nodes, List.forall_mem_cons]
    -- the root itself is fine if its children have different names
    simp [Fine]
  · rw [h_tree] at h_meets
    exact h_meets.listing_eq

/-- A user has a directory, and a file beside it is named after a guest. -/
def lodging : List Manifest :=
  [.directory "home" [.directory "$USER" [.file "a.txt" "data:,hi"], .file "$GUEST" "data:x/y,z"],
    .file "b" "data:;base64,aGk="]

/-- The variables for a guest of Ann. -/
def hosting (guest : String) : Environment where
  bindings := (OrderedMap.empty.insert "USER" "ann").insert "GUEST" guest

/-- The tree is there unless the guest has the name of the user. -/
theorem toTree_spec_lodging :
    (∃ tree, (Manifest.directory "" lodging).toTree (hosting "bob") = .ok tree ∧
      tree.listing = [some ([""], .directory), some (["home", ""], .directory),
        some (["ann", "home", ""], .directory),
        some (["a.txt", "ann", "home", ""], .file (.plain "hi")),
        some (["bob", "home", ""], .file ⟨"x/y", "z".toUTF8⟩),
        some (["b", ""], .file (.plain "hi"))]) ∧
    (Manifest.directory "" lodging).toTree (hosting "ann") =
      .error (.duplicateName "home" "ann") := by
  obtain ⟨-, -, h_listing, -⟩ := toTree_spec (hosting "bob") "" lodging
  obtain ⟨-, -, -, h_error⟩ := toTree_spec (hosting "ann") "" lodging
  constructor
  · have h_built :
        ((Manifest.directory "" lodging).toTree (hosting "bob")).toOption.isSome = true := by
      decide +kernel
    cases h_tree : (Manifest.directory "" lodging).toTree (hosting "bob") with
    | error e =>
      rw [h_tree] at h_built
      cases h_built
    | ok tree => exact ⟨tree, rfl, (h_listing tree h_tree).trans (by decide +kernel)⟩
  · exact (h_error _).2 (by decide +kernel)

end Building

end Manifest

end PocketShell
