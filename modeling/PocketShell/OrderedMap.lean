/-!
# Maps that remember their order

An `OrderedMap` binds names to values and lists its bindings in the order in which the names were
first bound. Variables, the children of a directory and the commands of a session are all kept in
such maps, since listings show that order.

* `OrderedMap.find?` — the value of a name;
* `OrderedMap.insert` — binds a name: in its old place if it was bound, else behind all others;
* `OrderedMap.erase` — drops a name and keeps the order of the rest.

No name is bound twice; this is part of the type.
-/

namespace PocketShell

/-- **Maps that remember their order.** Bindings of distinct names, in the order in which the names
were first bound. -/
structure OrderedMap (β : Type) where
  entries : List (String × β)
  /-- No name is bound twice. -/
  distinct : (entries.map Prod.fst).Nodup

namespace OrderedMap

variable {β : Type}

def empty : OrderedMap β where
  entries := []
  distinct := List.nodup_nil

instance : EmptyCollection (OrderedMap β) := ⟨empty⟩

instance : Inhabited (OrderedMap β) := ⟨empty⟩

def keys (map : OrderedMap β) : List String :=
  map.entries.map Prod.fst

def values (map : OrderedMap β) : List β :=
  map.entries.map Prod.snd

def size (map : OrderedMap β) : Nat :=
  map.entries.length

def isEmpty (map : OrderedMap β) : Bool :=
  map.entries.isEmpty

/-- The value of a name, if it is bound. -/
def find? (map : OrderedMap β) (key : String) : Option β :=
  map.entries.lookup key

def contains (map : OrderedMap β) (key : String) : Bool :=
  (map.find? key).isSome

/-! ### Binding a name -/

/-- The bindings with one more: the name keeps its place if it has one. -/
def insertEntry (key : String) (value : β) : List (String × β) → List (String × β)
  | [] => [(key, value)]
  | entry :: rest =>
    if entry.1 = key then (key, value) :: rest else entry :: insertEntry key value rest

theorem mem_keys_insertEntry {key name : String} {value : β} {entries : List (String × β)} :
    name ∈ (insertEntry key value entries).map Prod.fst ↔
      name = key ∨ name ∈ entries.map Prod.fst := by
  induction entries with
  | nil => simp [insertEntry]
  | cons entry rest ih =>
    by_cases h : entry.1 = key
    · simp [insertEntry, h]
    · simp only [insertEntry, h, if_false, List.map_cons, List.mem_cons, ih]
      constructor <;> (rintro (h | h | h) <;> simp [h])

theorem nodup_insertEntry (key : String) (value : β) {entries : List (String × β)}
    (h : (entries.map Prod.fst).Nodup) : ((insertEntry key value entries).map Prod.fst).Nodup := by
  induction entries with
  | nil => simp [insertEntry]
  | cons entry rest ih =>
    rw [List.map_cons, List.nodup_cons] at h
    by_cases hk : entry.1 = key
    · -- the value is new, the names are the same
      simp only [insertEntry, hk, if_true, List.map_cons, List.nodup_cons]
      exact ⟨hk ▸ h.1, h.2⟩
    · simp only [insertEntry, hk, if_false, List.map_cons, List.nodup_cons]
      exact ⟨fun hm => (mem_keys_insertEntry.1 hm).elim hk h.1, ih h.2⟩

/-- **Binding a name.** A bound name gets the value in its old place, a new one behind all
others. -/
def insert (map : OrderedMap β) (key : String) (value : β) : OrderedMap β where
  entries := insertEntry key value map.entries
  distinct := nodup_insertEntry key value map.distinct

/-- **Dropping a name.** The other bindings keep their order. -/
def erase (map : OrderedMap β) (key : String) : OrderedMap β where
  entries := map.entries.filter fun entry => entry.1 ≠ key
  distinct := map.distinct.sublist (List.filter_sublist.map Prod.fst)

/-! ### What is bound -/

theorem lookup_cons (key name : String) (value : β) (entries : List (String × β)) :
    ((key, value) :: entries).lookup name =
      if name = key then some value else entries.lookup name := by
  by_cases h : name = key
  · simp [h]
  · rw [List.lookup_cons, beq_false_of_ne h, if_neg h]

theorem lookup_eq_some_iff {entries : List (String × β)} (h : (entries.map Prod.fst).Nodup)
    {key : String} {value : β} : entries.lookup key = some value ↔ (key, value) ∈ entries := by
  induction entries with
  | nil => simp
  | cons entry rest ih =>
    obtain ⟨name, bound⟩ := entry
    rw [List.map_cons, List.nodup_cons] at h
    rw [lookup_cons]
    by_cases hk : key = name
    · have hrest : (key, value) ∉ rest := fun hm => h.1 (List.mem_map.2 ⟨_, hm, hk⟩)
      simp [hk ▸ hrest, hk, eq_comm]
    · simp [hk, ih h.2]

/-- A name has a value exactly when the two are bound to each other. -/
theorem find?_eq_some_iff {map : OrderedMap β} {key : String} {value : β} :
    map.find? key = some value ↔ (key, value) ∈ map.entries :=
  lookup_eq_some_iff map.distinct

theorem find?_eq_none_iff {map : OrderedMap β} {key : String} :
    map.find? key = none ↔ key ∉ map.keys := by
  rw [Option.eq_none_iff_forall_ne_some, keys, List.mem_map]
  constructor
  · rintro h ⟨entry, h_mem, rfl⟩
    exact h entry.2 (find?_eq_some_iff.2 h_mem)
  · exact fun h value h_find => h ⟨_, find?_eq_some_iff.1 h_find, rfl⟩

theorem mem_values_iff {map : OrderedMap β} {value : β} :
    value ∈ map.values ↔ ∃ key, map.find? key = some value := by
  simp [values, find?_eq_some_iff]

@[simp] theorem find?_empty (key : String) : (∅ : OrderedMap β).find? key = none := rfl

@[simp] theorem values_empty : (∅ : OrderedMap β).values = [] := rfl

theorem contains_eq_false_iff {map : OrderedMap β} {key : String} :
    map.contains key = false ↔ map.find? key = none := by
  simp [contains]

theorem lookup_insertEntry (key name : String) (value : β) (entries : List (String × β)) :
    (insertEntry key value entries).lookup name =
      if name = key then some value else entries.lookup name := by
  induction entries with
  | nil => exact lookup_cons key name value []
  | cons entry rest ih =>
    obtain ⟨first, bound⟩ := entry
    by_cases hk : first = key
    · rw [insertEntry, if_pos hk, lookup_cons, lookup_cons, hk]
      split <;> rfl
    · rw [insertEntry, if_neg hk, lookup_cons, lookup_cons, ih]
      by_cases h : name = key
      · rw [if_pos h, if_pos h, if_neg fun hf => hk (hf.symm.trans h)]
      · rw [if_neg h, if_neg h]

/-- After a name was bound it has its new value, and every other name the value it had. -/
theorem find?_insert (map : OrderedMap β) (key name : String) (value : β) :
    (map.insert key value).find? name = if name = key then some value else map.find? name :=
  lookup_insertEntry key name value map.entries

theorem insertEntry_insertEntry (key : String) (first second : β) (entries : List (String × β)) :
    insertEntry key second (insertEntry key first entries) = insertEntry key second entries := by
  induction entries with
  | nil => simp [insertEntry]
  | cons entry rest ih =>
    by_cases hk : entry.1 = key
    · simp [insertEntry, hk]
    · simp [insertEntry, hk, ih]

/-- Of two values for one name the later one counts. -/
theorem insert_insert (map : OrderedMap β) (key : String) (first second : β) :
    (map.insert key first).insert key second = map.insert key second := by
  simp only [insert, insertEntry_insertEntry]

/-- After a name was dropped it has no value, and every other name the value it had. -/
theorem find?_erase (map : OrderedMap β) (key name : String) :
    (map.erase key).find? name = if name = key then none else map.find? name := by
  by_cases h : name = key
  · rw [if_pos h, find?_eq_none_iff]
    simp [keys, erase, h]
  · rw [if_neg h]
    refine Option.ext fun value => ?_
    rw [find?_eq_some_iff, find?_eq_some_iff]
    simp [erase, h]

theorem insertEntry_of_notMem {key : String} {value : β} {entries : List (String × β)}
    (h : key ∉ entries.map Prod.fst) :
    insertEntry key value entries = entries ++ [(key, value)] := by
  induction entries with
  | nil => rfl
  | cons entry rest ih =>
    rw [List.map_cons, List.mem_cons, not_or] at h
    rw [insertEntry, if_neg (Ne.symm h.1), ih h.2, List.cons_append]

/-- A name that was not bound is bound behind all others. -/
theorem entries_insert {map : OrderedMap β} {key : String} {value : β}
    (h : map.find? key = none) :
    (map.insert key value).entries = map.entries ++ [(key, value)] :=
  insertEntry_of_notMem (find?_eq_none_iff.1 h)

/-- A name that was not bound is bound and dropped again. -/
theorem erase_insert {map : OrderedMap β} {key : String} {value : β} (h : map.find? key = none) :
    (map.insert key value).erase key = map := by
  have h_keep : ∀ entry ∈ map.entries, decide (entry.1 ≠ key) = true := by
    intro entry h_mem
    refine decide_eq_true fun h_key => find?_eq_none_iff.1 h ?_
    exact h_key ▸ List.mem_map_of_mem h_mem
  have h_entries : ((map.insert key value).erase key).entries = map.entries := by
    show (map.insert key value).entries.filter _ = map.entries
    rw [entries_insert h, List.filter_append, List.filter_eq_self.2 h_keep]
    simp
  cases map
  rw [OrderedMap.mk.injEq]
  exact h_entries

theorem keys_insertEntry_of_mem {key : String} {value : β} {entries : List (String × β)}
    (h : key ∈ entries.map Prod.fst) :
    (insertEntry key value entries).map Prod.fst = entries.map Prod.fst := by
  induction entries with
  | nil => cases h
  | cons entry rest ih =>
    by_cases h_first : entry.1 = key
    · simp [insertEntry, h_first]
    · have h_rest : key ∈ rest.map Prod.fst :=
        (List.mem_cons.1 h).resolve_left (Ne.symm h_first)
      simp [insertEntry, h_first, ih h_rest]

/-- **Names keep their places.** A name that is bound keeps the one that it has, and a new name
comes last. -/
theorem keys_prefix_insert (map : OrderedMap β) (key : String) (value : β) :
    map.keys <+: (map.insert key value).keys := by
  by_cases h : key ∈ map.keys
  · have h_keys : (map.insert key value).keys = map.keys := keys_insertEntry_of_mem h
    exact ⟨[], by rw [List.append_nil, h_keys]⟩
  · rw [keys, keys, entries_insert (find?_eq_none_iff.2 h), List.map_append]
    exact List.prefix_append _ _

theorem values_insert {map : OrderedMap β} {key : String} {value : β}
    (h : map.find? key = none) : (map.insert key value).values = map.values ++ [value] := by
  rw [values, entries_insert h, List.map_append]
  rfl

theorem values_erase_sublist (map : OrderedMap β) (key : String) :
    (map.erase key).values.Sublist map.values :=
  List.filter_sublist.map Prod.snd

end OrderedMap

end PocketShell
