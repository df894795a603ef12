import Mathlib.Data.List.Basic
import Mathlib.Data.List.TakeWhile
import PocketShell.Environment
import PocketShell.Error

/-!
# Variables that are bound

Binding a variable gives it its value and leaves every other variable alone
(`Environment.find?_put`, `Environment.get_put`). So variables that are bound one after the other
leave alone what none of them is (`Environment.find?_putAll`), and of two values for one variable
only the second one counts (`Environment.put_put`).

A text without a `$` has no references in it (`Environment.interpolate_of_notMem`).
-/

namespace PocketShell.Environment

variable {env after : Environment} {key : String}

/-- **Looking up what was bound.** -/
theorem find?_put {value : String} (h : env.put key value = .ok after) (name : String) :
    after.bindings.find? name = if name = key then some value else env.bindings.find? name := by
  unfold put at h
  split at h
  · cases h
  · cases h
    exact OrderedMap.find?_insert _ _ _ _

/-- **Reading what was bound.** -/
theorem get_put {value : String} (h : env.put key value = .ok after) (name : String) :
    after.get name = if name = key then value else env.get name := by
  rw [get, find?_put h, apply_ite (Option.getD · "")]
  rfl

theorem get_put_self {value : String} (h : env.put key value = .ok after) :
    after.get key = value := by
  rw [get_put h, if_pos rfl]

/-- **Binding a variable twice** is binding it to the second value. -/
theorem put_put {value : String} (h : env.put key value = .ok after) (other : String) :
    after.put key other = env.put key other := by
  unfold put at h ⊢
  split at h
  · cases h
  · next h_key =>
    cases h
    rw [if_neg h_key, if_neg h_key, OrderedMap.insert_insert]

section PutAll

variable {bindings : List (String × String)}

/-- Binding other variables leaves a variable alone. -/
theorem find?_putAll (h : env.putAll bindings = .ok after)
    (h_other : ∀ binding ∈ bindings, binding.1 ≠ key) :
    after.bindings.find? key = env.bindings.find? key := by
  induction bindings generalizing env with
  | nil =>
    cases h
    rfl
  | cons binding bindings ih =>
    rw [putAll, List.foldlM_cons] at h
    obtain ⟨middle, h_put, h_rest⟩ := bind_eq_ok_iff.1 h
    have h_first : key ≠ binding.1 := Ne.symm (h_other binding List.mem_cons_self)
    rw [ih h_rest fun b h_b => h_other b (List.mem_cons_of_mem _ h_b), find?_put h_put,
      if_neg h_first]

/-- **Reading one of several variables** that were bound. -/
theorem find?_putAll_of_mem {extra : List (String × String)} {value : String}
    (h : env.putAll (bindings ++ extra) = .ok after) (h_nodup : (bindings.map Prod.fst).Nodup)
    (h_mem : (key, value) ∈ bindings) (h_extra : ∀ binding ∈ extra, binding.1 ≠ key) :
    after.bindings.find? key = some value := by
  obtain ⟨front, back, rfl⟩ := List.append_of_mem h_mem
  rw [List.append_assoc, List.cons_append, putAll, List.foldlM_append] at h
  obtain ⟨before, -, h_rest⟩ := bind_eq_ok_iff.1 h
  rw [List.foldlM_cons] at h_rest
  obtain ⟨middle, h_put, h_others⟩ := bind_eq_ok_iff.1 h_rest
  rw [find?_putAll h_others, find?_put h_put, if_pos rfl]
  intro binding h_binding
  rcases List.mem_append.1 h_binding with h_back | h_new
  · rintro rfl
    rw [List.map_append, List.map_cons, List.nodup_append, List.nodup_cons] at h_nodup
    exact h_nodup.2.1.1 (List.mem_map.2 ⟨binding, h_back, rfl⟩)
  · exact h_extra binding h_new

end PutAll

/-! ### References -/

/-- The user can be referred to. -/
theorem isNameChar_of_mem_userName : ∀ c ∈ userName.toList, isNameChar c = true :=
  List.forall_iff_forall_mem.1 (by decide)

theorem interpolateChars_of_notMem {cs : List Char} (h : '$' ∉ cs) (env : Environment) :
    env.interpolateChars cs = cs := by
  induction cs with
  | nil => rw [interpolateChars]
  | cons c cs ih =>
    rw [List.mem_cons, not_or] at h
    rw [interpolateChars, if_neg fun h_dollar => h.1 h_dollar.1.symm, ih h.2]

/-- **A text without references** is kept. -/
theorem interpolate_of_notMem {text : String} (h : '$' ∉ text.toList) (env : Environment) :
    env.interpolate text = text := by
  rw [interpolate, interpolateChars_of_notMem h, String.ofList_toList]

end PocketShell.Environment
