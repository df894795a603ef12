import PocketShell.Proofs.Environment

/-!
# References are replaced one by one

Replacing references is one pass over a text, and a local one. What stands in one place of the text
has an effect on what is put in at another only if the two belong to one reference:

* a text may be cut in two and both parts replaced separately, unless the cut goes through what may
  be a reference: the first part ends in one that is still open (`EndsOpen`), and the second part
  begins with a character of a name (`BeginsInName`);
* a reference that is followed by no further character of a name is replaced by the value of the
  variable, as it is, or kept (`interpolateChars_reference`);
* nothing but the variables that are referred to (`RefersTo`) has a say in the result.

All of it rests on one fact: what a reference takes of a text does not change if more text is put
behind it, as long as that does not go on with the name (`span_append`).
-/

namespace PocketShell.Environment

variable {env other : Environment} {name front back cs : List Char}

/-- **Open references.** The text ends in a `$` with nothing but characters of a name behind it, so
the reference may go on in what follows. -/
def EndsOpen (text : List Char) : Prop :=
  ∃ front name, text = front ++ '$' :: name ∧ ∀ c ∈ name, isNameChar c = true

/-- The first character of the text may stand in a name. -/
def BeginsInName (text : List Char) : Prop :=
  ∃ c rest, text = c :: rest ∧ isNameChar c = true

/-- **Referring to a variable.** The name stands behind a `$` somewhere in the text, and does not go
on behind that. -/
def RefersTo (text name : List Char) : Prop :=
  ∃ front back, text = front ++ '$' :: name ++ back ∧ name ≠ [] ∧
    (∀ c ∈ name, isNameChar c = true) ∧ ¬ BeginsInName back

theorem beginsInName_cons (c : Char) (cs : List Char) :
    BeginsInName (c :: cs) ↔ isNameChar c = true := by
  constructor
  · rintro ⟨_, _, h_eq, h⟩
    exact (List.cons.inj h_eq).1 ▸ h
  · exact fun h => ⟨c, cs, rfl, h⟩

theorem not_beginsInName_nil : ¬ BeginsInName [] := by
  rintro ⟨_, _, h_eq, -⟩
  cases h_eq

theorem not_beginsInName_dollar (cs : List Char) : ¬ BeginsInName ('$' :: cs) := by
  rw [beginsInName_cons]
  decide

theorem takeWhile_eq_nil_iff : cs.takeWhile isNameChar = [] ↔ ¬ BeginsInName cs := by
  cases cs with
  | nil => simp [not_beginsInName_nil]
  | cons c cs => rw [beginsInName_cons, List.takeWhile_cons]; split <;> simp [*]

theorem not_beginsInName_dropWhile (cs : List Char) :
    ¬ BeginsInName (cs.dropWhile isNameChar) := by
  induction cs with
  | nil => exact not_beginsInName_nil
  | cons c cs ih =>
    rw [List.dropWhile_cons]
    split
    · exact ih
    · next h => rwa [beginsInName_cons]

/-- A text that ends open still does with more text before it. -/
theorem EndsOpen.append (h : EndsOpen cs) (front : List Char) : EndsOpen (front ++ cs) := by
  obtain ⟨middle, name, rfl, h_name⟩ := h
  exact ⟨front ++ middle, name, (List.append_assoc front middle _).symm, h_name⟩

theorem RefersTo.append (h : RefersTo cs name) (front : List Char) :
    RefersTo (front ++ cs) name := by
  obtain ⟨middle, back, rfl, h_rest⟩ := h
  exact ⟨front ++ middle, back, by simp, h_rest⟩

/-! ### What one reference takes -/

/-- The characters that a name takes of a text are the same with more text behind, unless the name
reaches the end of the text and goes on there. -/
theorem span_append (h : (∀ c ∈ cs, isNameChar c = true) → ¬ BeginsInName back) :
    (cs ++ back).takeWhile isNameChar = cs.takeWhile isNameChar ∧
      (cs ++ back).dropWhile isNameChar = cs.dropWhile isNameChar ++ back := by
  induction cs with
  | nil =>
    have h_back : ¬ BeginsInName back := h (List.forall_mem_nil _)
    have h_take := takeWhile_eq_nil_iff.2 h_back
    refine ⟨h_take, ?_⟩
    have h_split := List.takeWhile_append_dropWhile (p := isNameChar) (l := back)
    rwa [h_take] at h_split
  | cons c cs ih =>
    by_cases h_char : isNameChar c = true
    · obtain ⟨h_take, h_drop⟩ := ih fun h_cs => h (List.forall_mem_cons.2 ⟨h_char, h_cs⟩)
      simp [h_char, h_take, h_drop]
    · simp [h_char]

theorem interpolateChars_nil (env : Environment) : env.interpolateChars [] = [] := by
  rw [interpolateChars]

/-- A character in front that begins no reference is kept. -/
theorem interpolateChars_cons {c : Char} (h : c = '$' → ¬ BeginsInName cs) :
    env.interpolateChars (c :: cs) = c :: env.interpolateChars cs := by
  rw [interpolateChars, if_neg]
  rintro ⟨h_dollar, h_take⟩
  exact h_take (takeWhile_eq_nil_iff.2 (h h_dollar))

/-- **A reference in front** is replaced, and the text behind it on its own. -/
theorem interpolateChars_reference (env : Environment) (h_some : name ≠ [])
    (h_name : ∀ c ∈ name, isNameChar c = true) (h_back : ¬ BeginsInName back) :
    env.interpolateChars ('$' :: (name ++ back)) =
      env.expand name ++ env.interpolateChars back := by
  obtain ⟨h_take, h_drop⟩ := @span_append back name fun _ => h_back
  rw [List.takeWhile_eq_self_iff.2 h_name] at h_take
  rw [List.dropWhile_eq_nil_iff.2 h_name, List.nil_append] at h_drop
  rw [interpolateChars, h_take, h_drop, if_pos ⟨rfl, h_some⟩]

/-! ### A text in two parts -/

/-- **Cutting a text** where no reference is open. -/
theorem interpolateChars_append (env : Environment) (h : ¬ (EndsOpen front ∧ BeginsInName back)) :
    env.interpolateChars (front ++ back) =
      env.interpolateChars front ++ env.interpolateChars back := by
  -- the induction takes what the replacement takes: a reference, or one other character
  induction front using interpolateChars.induct with
  | case1 => rw [interpolateChars_nil, List.nil_append, List.nil_append]
  | case2 c cs h_reference ih =>
    obtain ⟨rfl, h_some⟩ := h_reference
    have h_open : (∀ c ∈ cs, isNameChar c = true) → ¬ BeginsInName back := fun h_cs h_back =>
      h ⟨⟨[], cs, rfl, h_cs⟩, h_back⟩
    have h_rest : ¬ (EndsOpen (cs.dropWhile isNameChar) ∧ BeginsInName back) := by
      rintro ⟨h_ends, h_back⟩
      have h_split := List.takeWhile_append_dropWhile (p := isNameChar) (l := cs)
      refine h ⟨h_split ▸ ?_, h_back⟩
      exact h_ends.append ('$' :: cs.takeWhile isNameChar)
    obtain ⟨h_take, h_drop⟩ := span_append h_open
    rw [List.cons_append, interpolateChars, interpolateChars, h_take, h_drop, if_pos ⟨rfl, h_some⟩,
      if_pos ⟨rfl, h_some⟩, ih h_rest, List.append_assoc]
  | case3 c cs h_kept ih =>
    have h_cs : c = '$' → ¬ BeginsInName cs := fun h_dollar h_begins =>
      h_kept ⟨h_dollar, fun h_take => takeWhile_eq_nil_iff.1 h_take h_begins⟩
    have h_rest : ¬ (EndsOpen cs ∧ BeginsInName back) := fun h_both =>
      h ⟨h_both.1.append [c], h_both.2⟩
    have h_all : c = '$' → ¬ BeginsInName (cs ++ back) := by
      rintro rfl
      cases cs with
      | nil =>
        -- a `$` at the end is an open reference
        exact fun h_back => h ⟨⟨[], [], rfl, List.forall_mem_nil _⟩, h_back⟩
      | cons d cs =>
        rw [List.cons_append, beginsInName_cons, ← beginsInName_cons d cs]
        exact h_cs rfl
    rw [List.cons_append, interpolateChars_cons h_all, interpolateChars_cons h_cs, ih h_rest,
      List.cons_append]

/-- **A reference in a text** is replaced, and the text around it on its own. -/
theorem interpolateChars_around (env : Environment) (front : List Char) (h_some : name ≠ [])
    (h_name : ∀ c ∈ name, isNameChar c = true) (h_back : ¬ BeginsInName back) :
    env.interpolateChars (front ++ '$' :: name ++ back) =
      env.interpolateChars front ++ env.expand name ++ env.interpolateChars back := by
  rw [List.append_assoc, List.cons_append,
    interpolateChars_append env fun h_both => not_beginsInName_dollar _ h_both.2,
    interpolateChars_reference env h_some h_name h_back, List.append_assoc]

/-- **Cutting through a reference** shows as soon as the whole name is bound to the empty text and
nothing else is bound. -/
theorem exists_interpolateChars_append_ne (h_front : EndsOpen front) (h_back : BeginsInName back) :
    ∃ env : Environment, env.interpolateChars (front ++ back) ≠
      env.interpolateChars front ++ env.interpolateChars back := by
  obtain ⟨start, begun, rfl, h_begun⟩ := h_front
  -- the name goes on as far as the second part allows
  obtain ⟨rest, behind, rfl, h_rest, h_some, h_behind⟩ : ∃ rest behind, back = rest ++ behind ∧
      (∀ c ∈ rest, isNameChar c = true) ∧ rest ≠ [] ∧ ¬ BeginsInName behind :=
    ⟨_, _, (List.takeWhile_append_dropWhile (p := isNameChar) (l := back)).symm,
      fun _ => List.mem_takeWhile_imp, fun h_none => takeWhile_eq_nil_iff.1 h_none h_back,
      not_beginsInName_dropWhile back⟩
  have h_dollar : '$' ∉ rest := fun h_mem => absurd (h_rest _ h_mem) (by decide)
  let env : Environment := ⟨(∅ : OrderedMap String).insert (String.ofList (begun ++ rest)) ""⟩
  have h_find : ∀ name, env.bindings.find? (String.ofList name) =
      if name = begun ++ rest then some "" else none := by
    intro name
    rw [OrderedMap.find?_insert, OrderedMap.find?_empty]
    simp only [String.ofList_inj]
  have h_whole : env.expand (begun ++ rest) = [] := by
    rw [expand, h_find, if_pos rfl]
    rfl
  have h_part : env.interpolateChars ('$' :: begun) = '$' :: begun := by
    by_cases h_none : begun = []
    · rw [h_none, interpolateChars_cons fun _ => not_beginsInName_nil, interpolateChars_nil]
    · have h_kept : env.expand begun = '$' :: begun := by
        rw [expand, h_find, if_neg (by simpa using h_some)]
      have h_alone := interpolateChars_reference env h_none h_begun not_beginsInName_nil
      rwa [List.append_nil, interpolateChars_nil, List.append_nil, h_kept] at h_alone
  have h_left : env.interpolateChars (start ++ '$' :: begun) =
      env.interpolateChars start ++ '$' :: begun := by
    rw [interpolateChars_append env fun h_both => not_beginsInName_dollar _ h_both.2, h_part]
  have h_right : env.interpolateChars (rest ++ behind) = rest ++ env.interpolateChars behind := by
    rw [interpolateChars_append env fun h_both => h_behind h_both.2,
      interpolateChars_of_notMem h_dollar]
  have h_joined : env.interpolateChars (start ++ '$' :: begun ++ (rest ++ behind)) =
      env.interpolateChars start ++ env.interpolateChars behind := by
    have h_name : ∀ c ∈ begun ++ rest, isNameChar c = true :=
      List.forall_mem_append.2 ⟨h_begun, h_rest⟩
    have h_list : start ++ '$' :: begun ++ (rest ++ behind) =
        start ++ '$' :: (begun ++ rest) ++ behind := by simp
    rw [h_list, interpolateChars_around env start (by simp [h_some]) h_name h_behind, h_whole,
      List.append_nil]
  refine ⟨env, fun h_same => ?_⟩
  rw [h_joined, h_left, h_right] at h_same
  have h_length := congrArg List.length h_same
  simp only [List.length_append, List.length_cons] at h_length
  omega

/-- **What a text refers to** is all that counts. -/
theorem interpolateChars_congr
    (h : ∀ name, RefersTo cs name →
      env.bindings.find? (String.ofList name) = other.bindings.find? (String.ofList name)) :
    env.interpolateChars cs = other.interpolateChars cs := by
  induction cs using interpolateChars.induct with
  | case1 => rw [interpolateChars_nil, interpolateChars_nil]
  | case2 c cs h_reference ih =>
    obtain ⟨rfl, h_some⟩ := h_reference
    have h_split := List.takeWhile_append_dropWhile (p := isNameChar) (l := cs)
    have h_name : ∀ c ∈ cs.takeWhile isNameChar, isNameChar c = true :=
      fun _ => List.mem_takeWhile_imp
    have h_here : RefersTo ('$' :: cs) (cs.takeWhile isNameChar) :=
      ⟨[], _, by simp [h_split], h_some, h_name, not_beginsInName_dropWhile cs⟩
    have h_rest : ∀ name, RefersTo (cs.dropWhile isNameChar) name → RefersTo ('$' :: cs) name := by
      intro name h_later
      have h_more := h_later.append ('$' :: cs.takeWhile isNameChar)
      rwa [List.cons_append, h_split] at h_more
    have h_expand :
        env.expand (cs.takeWhile isNameChar) = other.expand (cs.takeWhile isNameChar) := by
      rw [expand, expand, h _ h_here]
    rw [interpolateChars, interpolateChars, if_pos ⟨rfl, h_some⟩, if_pos ⟨rfl, h_some⟩, h_expand,
      ih fun name h_later => h name (h_rest name h_later)]
  | case3 c cs h_kept ih =>
    rw [interpolateChars, interpolateChars, if_neg h_kept, if_neg h_kept,
      ih fun name h_later => h name (h_later.append [c])]

/-! ### Texts -/

/-- **Where a text may be cut:** everywhere but in a reference. -/
theorem interpolate_append_iff (front back : String) :
    (∀ env : Environment,
      env.interpolate (front ++ back) = env.interpolate front ++ env.interpolate back) ↔
        ¬ (EndsOpen front.toList ∧ BeginsInName back.toList) := by
  constructor
  · rintro h ⟨h_front, h_back⟩
    obtain ⟨env, h_ne⟩ := exists_interpolateChars_append_ne h_front h_back
    have h_same := String.toList_inj.2 (h env)
    simp only [interpolate, String.toList_append, String.toList_ofList] at h_same
    exact h_ne h_same
  · intro h env
    rw [interpolate, String.toList_append, interpolateChars_append env h, String.ofList_append]
    rfl

/-- What a reference is replaced by, as a text. -/
theorem ofList_expand (env : Environment) (name : String) :
    String.ofList (env.expand name.toList) = (env.bindings.find? name).getD ("$" ++ name) := by
  rw [expand, String.ofList_toList]
  cases env.bindings.find? name with
  | none => exact String.toList_inj.1 (by simp)
  | some value => exact String.ofList_toList

theorem interpolate_around (env : Environment) (front : String) {name back : String}
    (h_some : name ≠ "") (h_name : ∀ c ∈ name.toList, isNameChar c = true)
    (h_back : ¬ BeginsInName back.toList) :
    env.interpolate (front ++ "$" ++ name ++ back) =
      env.interpolate front ++ (env.bindings.find? name).getD ("$" ++ name) ++
        env.interpolate back := by
  have h_chars : name.toList ≠ [] := by simpa using h_some
  have h_list : (front ++ "$" ++ name ++ back).toList =
      front.toList ++ '$' :: name.toList ++ back.toList := by simp
  rw [interpolate, h_list, interpolateChars_around env _ h_chars h_name h_back,
    String.ofList_append, String.ofList_append, ofList_expand]
  rfl

/-- **A text that is a reference** to a bound variable is replaced by the value. -/
theorem interpolate_reference {name value : String} (h_some : name ≠ "")
    (h_name : ∀ c ∈ name.toList, isNameChar c = true)
    (h_find : env.bindings.find? name = some value) : env.interpolate ("$" ++ name) = value := by
  have h_none : ¬ BeginsInName "".toList := not_beginsInName_nil
  have h_empty : env.interpolate "" = "" := interpolate_of_notMem (by decide) env
  have h_around := interpolate_around env "" h_some h_name h_none
  rwa [h_find, h_empty, String.empty_append, String.append_empty, String.append_empty,
    Option.getD_some, String.empty_append] at h_around

theorem interpolate_congr {text : String}
    (h : ∀ name : String, RefersTo text.toList name.toList →
      env.bindings.find? name = other.bindings.find? name) :
    env.interpolate text = other.interpolate text := by
  have h_chars : env.interpolateChars text.toList = other.interpolateChars text.toList :=
    interpolateChars_congr fun name h_refers => h _ (by rwa [String.toList_ofList])
  rw [interpolate, interpolate, h_chars]

/-- **Replacing references is one local pass.**

* A text may be cut in two and both parts replaced separately, whatever is bound, unless the first
  part ends in an open reference and the second begins with a character of a name. If they do, there
  are variables for which the cut makes a difference.
* A reference with no further character of a name behind it is replaced by the value of the
  variable, whatever that is, and kept if the variable is not bound; the text around it is replaced
  as if it stood alone.
* Two environments in which the variables that a text refers to are the same replace its references
  in the same way. -/
theorem interpolate_local :
    (∀ front back : String,
      (∀ env : Environment,
        env.interpolate (front ++ back) = env.interpolate front ++ env.interpolate back) ↔
          ¬ (EndsOpen front.toList ∧ BeginsInName back.toList)) ∧
    (∀ (env : Environment) (front name back : String), name ≠ "" →
      (∀ c ∈ name.toList, isNameChar c = true) → ¬ BeginsInName back.toList →
        env.interpolate (front ++ "$" ++ name ++ back) =
          env.interpolate front ++ (env.bindings.find? name).getD ("$" ++ name) ++
            env.interpolate back) ∧
    ∀ (env other : Environment) (text : String),
      (∀ name : String, RefersTo text.toList name.toList →
        env.bindings.find? name = other.bindings.find? name) →
          env.interpolate text = other.interpolate text :=
  ⟨interpolate_append_iff, fun env front _ _ => interpolate_around env front,
    fun _ _ _ => interpolate_congr⟩

/-- A value that reads like a reference, next to an empty one and between signs that begin none. -/
theorem interpolate_local_adjacent :
    ∃ env other : Environment, ({} : Environment).putAll [("a", "$b"), ("b", "")] = .ok env ∧
      env.put "c" "x" = .ok other ∧
      env.interpolate ("$" ++ "$a") = env.interpolate "$" ++ env.interpolate "$a" ∧
      env.interpolate ("$b" ++ "$" ++ "a" ++ "$") =
        env.interpolate "$b" ++ "$b" ++ env.interpolate "$" ∧
      env.interpolate "$a$b" = other.interpolate "$a$b" := by
  obtain ⟨h_cut, h_around, h_congr⟩ := interpolate_local
  obtain ⟨env, h_env⟩ : ∃ env, ({} : Environment).putAll [("a", "$b"), ("b", "")] = .ok env :=
    ⟨_, rfl⟩
  obtain ⟨other, h_other⟩ : ∃ other, env.put "c" "x" = .ok other := ⟨_, rfl⟩
  have h_find : env.bindings.find? "a" = some "$b" := by
    cases h_env
    rfl
  have h_letter : ∀ c ∈ "a".toList, isNameChar c = true := List.forall_mem_singleton.2 (by decide)
  refine ⟨env, other, h_env, h_other, ?_, ?_, ?_⟩
  · exact (h_cut "$" "$a").2 (fun h_both => not_beginsInName_dollar _ h_both.2) env
  · have h_reference := h_around env "$b" "a" "$" (by decide) h_letter (not_beginsInName_dollar _)
    rwa [h_find] at h_reference
  · refine h_congr env other "$a$b" fun name h_refers => ?_
    -- a name that the text refers to is made of characters of the text
    have h_name : name ≠ "c" := by
      rintro rfl
      obtain ⟨front, back, h_text, -⟩ := h_refers
      have h_mem : 'c' ∈ "$a$b".toList := by simp [h_text]
      exact absurd h_mem (by decide)
    rw [find?_put h_other, if_neg h_name]

end PocketShell.Environment
