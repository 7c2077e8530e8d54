import Mathlib.Data.List.Flatten
import Dvws.Files.Growth

/-!
# Canonical paths

`render` writes the canonical path of a place: it leads back there (`normalize_render`), and no
absolute path that leads there is shorter (`length_render_normalize_le`). A path of a directory
leads to the same place with a slash behind it, and with a slash and a name behind it to the entry
of that name.
-/

namespace Dvws.Files

variable {cwd loc : Location}

/-- The names are such as a directory can have in it. -/
structure Proper (loc : Location) : Prop where
  ordinary : Ordinary loc
  single : ∀ name ∈ loc, components name = [name]

/-- Ordinary names lead down. -/
theorem foldl_enter_ordinary {names : List Bytes} (h : Ordinary names) (here : Location) :
    names.foldl enter here = here ++ names := by
  induction names generalizing here with
  | nil => exact (List.append_nil here).symm
  | cons name names ih =>
      rw [List.foldl_cons, enter_ordinary (h name List.mem_cons_self),
        ih fun other hother => h other (List.mem_cons_of_mem _ hother)]
      simp

/-- A place that names of a path lead to from a proper place is proper. -/
theorem Proper.foldl_enter {names : List Bytes} {here : Location} (h : Proper here)
    (hnames : ∀ name ∈ names, components name = [name]) : Proper (names.foldl enter here) := by
  induction names generalizing here with
  | nil => exact h
  | cons name names ih =>
      refine ih ?_ fun other hother => hnames other (List.mem_cons_of_mem _ hother)
      unfold enter
      split
      · exact h
      · split
        · exact ⟨fun part hpart => h.ordinary part (List.mem_of_mem_dropLast hpart),
            fun part hpart => h.single part (List.mem_of_mem_dropLast hpart)⟩
        · rename_i hdot hup
          have hname := hnames name List.mem_cons_self
          constructor
          · intro part hpart
            rcases List.mem_append.mp hpart with hpart | hpart
            · exact h.ordinary part hpart
            · obtain rfl := List.mem_singleton.mp hpart
              exact ⟨hdot, hup⟩
          · intro part hpart
            rcases List.mem_append.mp hpart with hpart | hpart
            · exact h.single part hpart
            · obtain rfl := List.mem_singleton.mp hpart
              exact hname

/-- A path leads to a proper place from a proper place. -/
theorem Proper.normalize (h : Proper cwd) (path : Bytes) : Proper (normalize cwd path) := by
  refine Proper.foldl_enter ?_ fun name hname => components_of_mem hname
  unfold origin
  split
  · exact ⟨fun name hname => absurd hname List.not_mem_nil,
      fun name hname => absurd hname List.not_mem_nil⟩
  · exact h

/-! ## The canonical path -/

/-- The names with a slash in front of each. -/
def slashed (names : List Bytes) : Bytes := names.flatMap fun name => 47 :: name

/-- One more name is written behind a slash. -/
theorem slashed_concat (names : List Bytes) (name : Bytes) :
    slashed (names ++ [name]) = slashed names ++ 47 :: name := by
  simp only [slashed, List.flatMap_append, List.flatMap_singleton]

/-- A path with a slash in front has the same names. -/
theorem components_cons_slash (path : Bytes) : components (47 :: path) = components path :=
  components_join [] path

/-- A slash behind a path changes no component. -/
theorem components_append_slash (path : Bytes) : components (path ++ [47]) = components path :=
  (components_join path []).trans (List.append_nil _)

/-- A path leads to the same place with a slash behind. -/
theorem normalize_append_slash {path : Bytes} (h : path ≠ []) (cwd : Location) :
    normalize cwd (path ++ [47]) = normalize cwd path := by
  rw [normalize, normalize, components_append_slash, origin_join h]

/-- Two slashes in a path are normalised as one. -/
theorem normalize_double_slash (a b : Bytes) (cwd : Location) :
    normalize cwd (a ++ 47 :: 47 :: b) = normalize cwd (a ++ 47 :: b) := by
  have horigin : origin cwd (a ++ 47 :: 47 :: b) = origin cwd (a ++ 47 :: b) := by
    cases a <;> rfl
  rw [normalize, normalize, horigin, components_join, components_join, components_cons_slash]

/-- Names that are written with slashes in front are read back. -/
theorem components_slashed {names : List Bytes} (h : ∀ name ∈ names, components name = [name]) :
    components (slashed names) = names := by
  induction names using List.reverseRecOn with
  | nil => rfl
  | append_singleton names name ih =>
      rw [slashed_concat, components_join,
        ih fun other hother => h other (List.mem_append_left _ hother),
        h name (by simp)]

/-- The path of a place has its names. -/
theorem components_render (h : ∀ name ∈ loc, components name = [name]) :
    components (render loc) = loc := by
  unfold render
  split
  · rename_i hnil
    rw [hnil]
    rfl
  · exact components_slashed h

/-- The path of a place is absolute. -/
theorem head_render (loc : Location) : (render loc).head? = some 47 := by
  cases loc <;> rfl

/-- The path of an entry is that of its directory, which is not the root, and its name behind a
slash. -/
theorem render_entry (h : loc ≠ []) (name : Bytes) :
    render (loc ++ [name]) = render loc ++ 47 :: name := by
  rw [render, if_neg (by simp), render, if_neg h]
  simp

/-- The path of a proper place leads to that place. -/
theorem normalize_render (h : Proper loc) (cwd : Location) : normalize cwd (render loc) = loc := by
  rw [normalize, components_render h.single, origin, if_pos (head_render loc),
    foldl_enter_ordinary h.ordinary, List.nil_append]

/-- The first of proper names are proper. -/
theorem Proper.of_concat {front : Location} {name : Bytes} (h : Proper (front ++ [name])) :
    Proper front ∧ components name = [name] ∧ name ≠ lit "." ∧ name ≠ lit ".." := by
  have hlast : name ∈ front ++ [name] := List.mem_append_right _ (List.mem_singleton_self name)
  refine ⟨⟨fun other hother => ?_, fun other hother => ?_⟩, h.single name hlast,
    h.ordinary name hlast⟩
  · exact h.ordinary other (List.mem_append_left _ hother)
  · exact h.single other (List.mem_append_left _ hother)

/-- Names do not end in a slash. -/
theorem last_slashed (h : Proper loc) (hne : loc ≠ []) (front : Bytes) :
    (front ++ slashed loc).getLast? ≠ some 47 := by
  obtain rfl | ⟨names, name, rfl⟩ := List.eq_nil_or_concat loc
  · exact absurd rfl hne
  · rw [List.concat_eq_append] at h ⊢
    obtain ⟨-, hsingle, -⟩ := Proper.of_concat h
    obtain ⟨hnonempty, hnot⟩ := ne_nil_and_not_mem_of_single hsingle
    intro hends
    rw [slashed_concat, List.append_cons, ← List.append_assoc, ← List.append_assoc,
      List.getLast?_append_of_ne_nil _ hnonempty] at hends
    exact hnot (List.mem_of_getLast? hends)

/-- With slashes in front, the parts of a path are the path with one in front. -/
theorem slashed_splitOn (path : Bytes) : slashed (path.splitOn 47) = 47 :: path := by
  have hjoin (names : List Bytes) (hne : names ≠ []) :
      slashed names = 47 :: [47].intercalate names := by
    induction names with
    | nil => exact absurd rfl hne
    | cons name names ih =>
        by_cases hnil : names = []
        · rw [hnil]
          simp [slashed]
        · have hrest := ih hnil
          rw [List.intercalate_cons_of_ne_nil hnil]
          rw [slashed, List.flatMap_cons, ← slashed, hrest]
          simp
  rw [hjoin _ (List.splitOn_ne_nil 47 path), List.intercalate_splitOn]

/-- The names of a path take up no more than the path. -/
theorem length_slashed_components_le (path : Bytes) :
    (slashed (components path)).length ≤ path.length + 1 := by
  have hsub : (slashed (components path)).Sublist (slashed (path.splitOn 47)) :=
    List.filter_sublist.flatMap _
  rw [slashed_splitOn] at hsub
  exact hsub.length_le

/-- The place that names lead to is written with no more bytes than where they start and the names
themselves. -/
theorem length_slashed_foldl_enter_le (names : List Bytes) (here : Location) :
    (slashed (names.foldl enter here)).length ≤
      (slashed here).length + (slashed names).length := by
  induction names generalizing here with
  | nil => exact Nat.le_add_right _ _
  | cons name names ih =>
      have hstep : (slashed (enter here name)).length ≤
          (slashed here).length + (name.length + 1) := by
        unfold enter
        split
        · exact Nat.le_add_right _ _
        · split
          · have hsub : (slashed here.dropLast).Sublist (slashed here) :=
              (List.dropLast_sublist here).flatMap _
            exact hsub.length_le.trans (Nat.le_add_right _ _)
          · simp [slashed]
      have hcons : (slashed (name :: names)).length = name.length + 1 + (slashed names).length := by
        rw [slashed, List.flatMap_cons, List.length_append, List.length_cons]
        rfl
      have hrest := ih (enter here name)
      rw [List.foldl_cons]
      omega

/-- No absolute path that leads to a place is shorter than that of the place. -/
theorem length_render_normalize_le {path : Bytes} (h : path.head? = some 47) (cwd : Location) :
    (render (normalize cwd path)).length ≤ path.length := by
  obtain ⟨rest, rfl⟩ := List.head?_eq_some_iff.mp h
  have hfold := length_slashed_foldl_enter_le (components rest) []
  have hnames := length_slashed_components_le rest
  have hnil : (slashed []).length = 0 := rfl
  have hplace : normalize cwd (47 :: rest) = (components rest).foldl enter [] := by
    rw [normalize, components_cons_slash, origin, if_pos h]
  rw [hplace, List.length_cons]
  unfold render
  split
  · exact Nat.le_add_left 1 _
  · show (slashed _).length ≤ _
    omega

/-! ## Paths of directories -/

variable {tree : FileTree} {path : Bytes} {node : Node}

/-- A path that leads somewhere is not empty. -/
theorem ne_nil_of_stat (h : stat tree cwd path = some (loc, node)) : path ≠ [] :=
  (Option.ite_none_left_eq_some.mp h).1

/-- A directory is found with a slash behind its path. -/
theorem stat_append_slash (h : stat tree cwd path = some (loc, node)) (hdir : node.isDir = true) :
    stat tree cwd (path ++ [47]) = some (loc, node) := by
  obtain ⟨hwalk, hnode⟩ := walk_of_stat h
  have hne := ne_nil_of_stat h
  unfold stat
  rw [if_neg (by simp), origin_join hne, components_append_slash, hwalk]
  simp [hnode, hdir]

/-- A name in a directory leads on from there. -/
theorem stat_enter (h : stat tree cwd path = some (loc, node)) (hdir : node.isDir = true)
    {name : Bytes} (hname : components name = [name]) :
    stat tree cwd (path ++ 47 :: name) =
      (tree (enter loc name)).map fun found => (enter loc name, found) := by
  obtain ⟨hwalk, hnode⟩ := walk_of_stat h
  obtain ⟨hnonempty, hnot⟩ := ne_nil_and_not_mem_of_single hname
  have hthere : tree.isDir loc = true := by
    rw [FileTree.isDir, hnode]
    exact hdir
  have hlast : walk tree loc [name] = some (enter loc name) := by
    rw [walk, walk, if_pos hthere]
  have hslash : (path ++ 47 :: name).getLast? ≠ some 47 := by
    intro hends
    rw [List.append_cons, List.getLast?_append_of_ne_nil _ hnonempty] at hends
    exact hnot (List.mem_of_getLast? hends)
  unfold stat
  rw [if_neg (by simp), origin_join (ne_nil_of_stat h), components_join, hname, walk_append, hwalk]
  show (walk tree loc [name]).bind _ = _
  rw [hlast, Option.bind_some]
  cases hentry : tree (enter loc name) with
  | none => rfl
  | some found =>
      show (if _ ∧ _ then none else some (enter loc name, found)) = some (enter loc name, found)
      exact if_neg fun hfound => hslash hfound.1

/-- An entry of a directory is found behind its path. -/
theorem stat_entry (h : stat tree cwd path = some (loc, node)) (hdir : node.isDir = true)
    {name : Bytes} (hname : Proper [name]) :
    stat tree cwd (path ++ 47 :: name) =
      (tree (loc ++ [name])).map fun found => (loc ++ [name], found) := by
  rw [stat_enter h hdir (hname.single name (List.mem_singleton_self name)),
    enter_ordinary (hname.ordinary name (List.mem_singleton_self _))]

end Dvws.Files
