import PocketShell.Path
import PocketShell.Proofs.Text.Pieces

/-!
# Paths and their segments

A path denotes a list of segments. Read as the names to follow from the root, a segment is a text
that is not empty, holds no `/`, and is neither `.` nor `..`; this is `Path.IsSegment`. The module
relates the three forms in which a place is written down:

* every path denotes segments (`isSegment_of_mem_segments`);
* writing segments loses nothing: the written path has these names (`names_render`), so different
  segments are written differently (`render_inj`);
* what is written denotes the segments again, whatever the working directory is
  (`segments_render`), and as the working directory it is what the empty path denotes
  (`segments_render_empty`). Paths that are written so are the normal ones (`isNormal_iff`).

Which segments a path denotes is found by walking along its text (`walk`). A text with a `/` in it
is walked along in two parts, the second one from where the first one leads (`walk_append`), and a
resolved path leads to where the path led (`walk_resolve`). So a path behind another one may be
resolved in two steps, the first of which gives the working directory of the second
(`segments_resolve`); a `..` in the second path takes back what the first one has entered, in one
pass as in two.

Cutting at the last `/` instead of at each one gives the last segment and the path of the directory
before it, which is the empty text right below the root (`splitLast?_render_append`).
-/

namespace PocketShell

namespace Path

/-- **Segments.** The names that stand for a step down. -/
def IsSegment (name : String) : Prop :=
  name ≠ "" ∧ name ≠ "." ∧ name ≠ ".." ∧ '/' ∉ name.toList

instance : DecidablePred IsSegment := fun name => by
  unfold IsSegment
  infer_instance

/-! ### What a path denotes -/

theorem isSegment_of_mem_enter {walked : List String} {piece : String}
    (h_piece : '/' ∉ piece.toList) (h : ∀ name ∈ walked, IsSegment name) :
    ∀ name ∈ enter walked piece, IsSegment name := by
  unfold enter
  split
  · exact h
  · next h_dot =>
    rw [not_or] at h_dot
    split
    · exact fun name h_name => h name (List.mem_of_mem_tail h_name)
    · next h_dots =>
      intro name h_name
      rcases List.mem_cons.1 h_name with rfl | h_old
      · exact ⟨h_dot.1, h_dot.2, h_dots, h_piece⟩
      · exact h name h_old

/-- **A path denotes segments.** -/
theorem isSegment_of_mem_segments {cwd path : String} :
    ∀ name ∈ segments cwd path, IsSegment name := by
  -- the invariant of the walk: everything entered so far is a segment
  have h_fold : ∀ (ps : List String), (∀ piece ∈ ps, '/' ∉ piece.toList) →
      ∀ walked : List String, (∀ name ∈ walked, IsSegment name) →
      ∀ name ∈ ps.foldl enter walked, IsSegment name := by
    intro ps
    induction ps with
    | nil => exact fun _ _ h => h
    | cons piece ps ih =>
      intro h_ps walked h_walked
      refine ih (fun p h_p => h_ps p (List.mem_cons_of_mem _ h_p)) _ ?_
      exact isSegment_of_mem_enter (h_ps piece List.mem_cons_self) h_walked
  intro name h_name
  refine h_fold (pieces cwd path) ?_ [] (fun _ h => nomatch h) name (List.mem_reverse.1 h_name)
  intro piece h_piece
  obtain ⟨cs, h_cs, rfl⟩ := List.mem_map.1 h_piece
  rw [String.toList_ofList]
  exact Text.notMem_of_mem_pieces h_cs

theorem foldl_enter_of_isSegment {names : List String} (h : ∀ name ∈ names, IsSegment name)
    (walked : List String) : names.foldl enter walked = names.reverse ++ walked := by
  induction names generalizing walked with
  | nil => rfl
  | cons name names ih =>
    obtain ⟨h_empty, h_dot, h_dots, -⟩ := h name List.mem_cons_self
    have h_enter : enter walked name = name :: walked := by
      simp [enter, h_empty, h_dot, h_dots]
    rw [List.foldl_cons, h_enter, ih fun n h_n => h n (List.mem_cons_of_mem _ h_n)]
    simp

/-! ### Writing segments and reading them again -/

theorem toList_render (names : List String) :
    (render names).toList = '/' :: ['/'].intercalate (names.map String.toList) := by
  simp [render]

/-- The pieces of written segments: an empty one before the first `/`, and the segments. -/
theorem pieces_render {names : List String} (h : ∀ name ∈ names, IsSegment name) :
    (Text.pieces '/' (render names).toList).map String.ofList =
      "" :: if names = [] then [""] else names := by
  rw [toList_render, Text.pieces, if_pos rfl, Text.pieces_eq_splitOn]
  by_cases h_nil : names = []
  · subst h_nil
    rfl
  · rw [if_neg h_nil, List.splitOn_intercalate]
    · simp [Function.comp_def]
    · intro cs h_cs
      obtain ⟨name, h_name, rfl⟩ := List.mem_map.1 h_cs
      exact (h name h_name).2.2.2
    · simpa using h_nil

/-- **The names of written segments** are the segments. -/
theorem names_render {names : List String} (h : ∀ name ∈ names, IsSegment name) :
    Path.names (render names) = names := by
  rw [Path.names, pieces_render h]
  by_cases h_nil : names = []
  · subst h_nil
    rfl
  · rw [if_neg h_nil]
    have h_all : ∀ name ∈ names, decide (name ≠ "") = true := fun name h_name =>
      decide_eq_true (h name h_name).1
    rw [List.filter_cons_of_neg (by simp), List.filter_eq_self.2 h_all]

/-- A resolved path is followed by what the path denotes. -/
theorem names_resolve (cwd path : String) : Path.names (resolve cwd path) = segments cwd path :=
  names_render isSegment_of_mem_segments

theorem render_inj {a b : List String} (h_a : ∀ name ∈ a, IsSegment name)
    (h_b : ∀ name ∈ b, IsSegment name) : render a = render b ↔ a = b := by
  constructor
  · intro h
    rw [← names_render h_a, h, names_render h_b]
  · rintro rfl
    rfl

/-- Only the root is denoted without any segment. -/
theorem resolve_eq_root_iff {cwd path : String} :
    resolve cwd path = "/" ↔ segments cwd path = [] := by
  have h_root : render [] = "/" := rfl
  rw [resolve, ← h_root, render_inj isSegment_of_mem_segments (List.forall_mem_nil _)]

/-! ### Walking along a path -/

/-- **Walking.** The segments so far, from the last to the first, after all pieces of a text. -/
def walk (walked : List String) (text : String) : List String :=
  ((Text.pieces '/' text.toList).map String.ofList).foldl enter walked

theorem segments_eq_walk (cwd path : String) :
    segments cwd path = (walk [] (combine cwd path)).reverse := rfl

/-- Walking along a text with a `/` in it is walking along what stands on both sides of it. -/
theorem walk_append (walked : List String) (front back : String) :
    walk walked (front ++ "/" ++ back) = walk (walk walked front) back := by
  have h_list : (front ++ "/" ++ back).toList = front.toList ++ '/' :: back.toList := by simp
  rw [walk, h_list, Text.pieces_append_separator, List.map_append, List.foldl_append]
  rfl

@[simp] theorem walk_empty (walked : List String) : walk walked "" = walked := by
  simp [walk, Text.pieces, enter]

/-- Written segments are walked along one by one. -/
theorem walk_render {names : List String} (h : ∀ name ∈ names, IsSegment name) :
    walk [] (render names) = names.reverse := by
  -- the empty piece before the first `/` enters nothing
  have h_empty : enter [] "" = [] := by simp [enter]
  rw [walk, pieces_render h, List.foldl_cons, h_empty]
  by_cases h_nil : names = []
  · subst h_nil
    rfl
  · rw [if_neg h_nil, foldl_enter_of_isSegment h, List.append_nil]

/-- What a path resolves to is walked along as the path was. -/
theorem walk_resolve (cwd path : String) :
    walk [] (resolve cwd path) = walk [] (combine cwd path) := by
  rw [resolve, walk_render isSegment_of_mem_segments, segments_eq_walk, List.reverse_reverse]

/-! ### Paths behind the working directory -/

/-- **Absolute paths.** Any other path is read behind the working directory. -/
def IsAbsolute (path : String) : Prop :=
  path.toList.head? = some '/'

instance : DecidablePred IsAbsolute := fun path =>
  inferInstanceAs (Decidable (path.toList.head? = some '/'))

theorem combine_of_isAbsolute {path : String} (h : IsAbsolute path) (cwd : String) :
    combine cwd path = path :=
  if_pos h

theorem combine_of_not_isAbsolute {path : String} (h : ¬ IsAbsolute path) (cwd : String) :
    combine cwd path = cwd ++ "/" ++ path :=
  if_neg h

theorem isAbsolute_render (names : List String) : IsAbsolute (render names) := by
  rw [IsAbsolute, toList_render]
  rfl

/-- Only the first character says whether a path is absolute. -/
theorem isAbsolute_append_iff {front : String} (h : front ≠ "") (back : String) :
    IsAbsolute (front ++ back) ↔ IsAbsolute front := by
  obtain ⟨c, cs, h_list⟩ : ∃ c cs, front.toList = c :: cs :=
    List.exists_cons_of_ne_nil (by simpa using h)
  rw [IsAbsolute, IsAbsolute, String.toList_append, h_list]
  rfl

/-- An absolute path denotes the same in every working directory. -/
theorem segments_of_isAbsolute {path : String} (h : IsAbsolute path) (cwd other : String) :
    segments cwd path = segments other path := by
  rw [segments_eq_walk, segments_eq_walk, combine_of_isAbsolute h, combine_of_isAbsolute h]

/-- Any other path is walked along from where the working directory leads. -/
theorem segments_of_not_isAbsolute {path : String} (h : ¬ IsAbsolute path) (cwd : String) :
    segments cwd path = (walk (walk [] cwd) path).reverse := by
  rw [segments_eq_walk, combine_of_not_isAbsolute h, walk_append]

/-- **Written segments denote themselves,** in every working directory. -/
theorem segments_render (cwd : String) {names : List String}
    (h : ∀ name ∈ names, IsSegment name) : segments cwd (render names) = names := by
  -- written segments begin with `/`, so the working directory is not read
  rw [segments_eq_walk, combine_of_isAbsolute (isAbsolute_render names), walk_render h,
    List.reverse_reverse]

/-- **The empty path denotes the working directory.** -/
theorem segments_render_empty {names : List String} (h : ∀ name ∈ names, IsSegment name) :
    segments (render names) "" = names := by
  rw [segments_of_not_isAbsolute (by decide), walk_empty, walk_render h, List.reverse_reverse]

/-! ### Paths one behind the other -/

/-- **Resolved paths stay.** They resolve to themselves in every working directory. -/
theorem resolve_resolve (other cwd path : String) :
    resolve other (resolve cwd path) = resolve cwd path := by
  show render (segments other (render (segments cwd path))) = render (segments cwd path)
  rw [segments_render other isSegment_of_mem_segments]

/-- **A path in the working directory that another path denotes** is the two paths with a `/` in
between. It must not be absolute itself, and the first path must not be empty, for then the `/`
would come first. -/
theorem segments_resolve {front back : String} (h_front : front ≠ "") (h_back : ¬ IsAbsolute back)
    (cwd : String) :
    segments (resolve cwd front) back = segments cwd (front ++ "/" ++ back) := by
  have h_combine : combine cwd (front ++ "/" ++ back) = combine cwd front ++ "/" ++ back := by
    have h_iff : IsAbsolute (front ++ "/" ++ back) ↔ IsAbsolute front := by
      rw [String.append_assoc, isAbsolute_append_iff h_front]
    by_cases h_absolute : IsAbsolute front
    · rw [combine_of_isAbsolute h_absolute, combine_of_isAbsolute (h_iff.2 h_absolute)]
    · rw [combine_of_not_isAbsolute h_absolute,
        combine_of_not_isAbsolute (fun h => h_absolute (h_iff.1 h))]
      simp only [String.append_assoc]
  calc segments (resolve cwd front) back
      = (walk (walk [] (resolve cwd front)) back).reverse := segments_of_not_isAbsolute h_back _
    _ = (walk (walk [] (combine cwd front)) back).reverse := by rw [walk_resolve]
    _ = (walk [] (combine cwd front ++ "/" ++ back)).reverse := by rw [walk_append]
    _ = segments cwd (front ++ "/" ++ back) := by rw [segments_eq_walk, h_combine]

/-- In the directory that the empty path denotes, paths denote what they denoted before. -/
theorem segments_resolve_empty (cwd path : String) :
    segments (resolve cwd "") path = segments cwd path := by
  by_cases h_absolute : IsAbsolute path
  · exact segments_of_isAbsolute h_absolute _ _
  · have h_cwd : walk [] (resolve cwd "") = walk [] cwd := by
      rw [walk_resolve, combine_of_not_isAbsolute (by decide), walk_append, walk_empty]
    rw [segments_of_not_isAbsolute h_absolute, segments_of_not_isAbsolute h_absolute, h_cwd]

/-! ### Normal paths -/

/-- **Normal paths:** the root, or steps down from it, each of them a `/` and a segment. -/
def IsNormal (path : String) : Prop :=
  path = "/" ∨ ∃ names : List String, names ≠ [] ∧ (∀ name ∈ names, IsSegment name) ∧
    path = String.join (names.map ("/" ++ ·))

/-- What is written with `/` between the segments has a `/` before each of them. -/
theorem render_eq_join {names : List String} (h : names ≠ []) :
    render names = String.join (names.map ("/" ++ ·)) := by
  induction names with
  | nil => exact absurd rfl h
  | cons name names ih =>
    by_cases h_nil : names = []
    · simp [h_nil, render, String.join]
    · have h_rest : render names = "/" ++ String.intercalate "/" names := rfl
      rw [List.map_cons, String.join_cons, ← ih h_nil, h_rest, render,
        String.intercalate_cons_of_ne_nil h_nil]
      simp only [String.append_assoc]

theorem isNormal_render {names : List String} (h : ∀ name ∈ names, IsSegment name) :
    IsNormal (render names) := by
  by_cases h_nil : names = []
  · rw [h_nil]
    exact .inl rfl
  · exact .inr ⟨names, h_nil, h, render_eq_join h_nil⟩

/-- **Normal paths are those that resolve to themselves,** in every working directory. -/
theorem isNormal_iff (path : String) : IsNormal path ↔ ∀ cwd, resolve cwd path = path := by
  constructor
  · intro h_normal cwd
    -- a normal path is what some segments are written as
    obtain ⟨names, h_names, rfl⟩ :
        ∃ names, (∀ name ∈ names, IsSegment name) ∧ path = render names := by
      rcases h_normal with rfl | ⟨names, h_some, h_names, rfl⟩
      · exact ⟨[], List.forall_mem_nil _, rfl⟩
      · exact ⟨names, h_names, (render_eq_join h_some).symm⟩
    rw [resolve, segments_render cwd h_names]
  · intro h_fixed
    rw [← h_fixed "/"]
    exact isNormal_render isSegment_of_mem_segments

/-! ### The last segment -/

theorem splitLast?_render_nil : splitLast? (render []) = some ("", "") := rfl

theorem render_append_singleton {front : List String} (h : front ≠ []) (last : String) :
    render (front ++ [last]) = render front ++ "/" ++ last := by
  rw [render, String.intercalate_append_of_ne_nil h (List.cons_ne_nil _ _),
    String.intercalate_singleton, render, String.append_assoc, String.append_assoc,
    String.append_assoc]

/-- Cutting written segments at the last `/` cuts off the last segment. -/
theorem splitLast?_render_append {front : List String} {last : String} (h : IsSegment last) :
    splitLast? (render (front ++ [last])) =
      some (if front = [] then "" else render front, last) := by
  by_cases h_nil : front = []
  · subst h_nil
    have h_list : (render [last]).toList = [] ++ '/' :: last.toList := by simp [render]
    rw [List.nil_append, splitLast?, h_list, Text.cutLast?_append_cons h.2.2.2]
    simp
  · have h_list :
        (render (front ++ [last])).toList = (render front).toList ++ '/' :: last.toList := by
      simp [render_append_singleton h_nil]
    rw [if_neg h_nil, splitLast?, h_list, Text.cutLast?_append_cons h.2.2.2]
    simp

end Path

end PocketShell
