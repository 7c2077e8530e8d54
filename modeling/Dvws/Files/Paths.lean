import Mathlib.Data.List.Induction
import Dvws.Files.Tree

/-!
# Joined paths and relative paths

`normalize_join` says where a path `a/b` leads: to where the names of `b` lead from `a`. A list of
names that are followed from some place first climbs a number of levels and then goes down
(`collapse`), whatever the place; `inside_iff` uses this to say when the names stay at or below
the place they are followed from.
-/

namespace Dvws.Files

/-- The names of a joined path are those of its parts. -/
theorem components_join (a b : Bytes) :
    components (a ++ 47 :: b) = components a ++ components b := by
  unfold components
  rw [List.splitOn_eq_splitOnP, List.splitOnP_append_cons a b (by decide), List.filter_append]
  rfl

/-- The names of a path are what is left of it without its slashes. -/
theorem flatten_components (path : Bytes) : (components path).flatten = path.filter (· ≠ 47) := by
  have hparts : (path.splitOn 47).flatten = path.filter (· ≠ 47) := by
    induction path with
    | nil => rfl
    | cons c path ih =>
        rw [List.splitOn_cons_eq_if_modifyHead]
        cases hparts : path.splitOn 47 with
        | nil => exact absurd hparts (List.splitOn_ne_nil 47 path)
        | cons first rest =>
            rw [hparts, List.flatten_cons] at ih
            by_cases hslash : c = 47
            · simpa [hslash] using ih
            · simpa [hslash] using ih
  unfold components
  rw [← hparts, List.flatten_filter_ne_nil]

/-- The bytes of a path but its slashes are those of its names. -/
theorem exists_mem_components_iff {path : Bytes} {c : UInt8} (hc : c ≠ 47) :
    (∃ name ∈ components path, c ∈ name) ↔ c ∈ path := by
  rw [← List.mem_flatten, flatten_components]
  simp [hc]

/-- A text without slashes is one component. -/
theorem components_of_not_mem {name : Bytes} (hslash : 47 ∉ name) (hne : name ≠ []) :
    components name = [name] := by
  unfold components
  rw [List.splitOn_eq_singleton hslash]
  simp [hne]

/-- One component is a text without slashes. -/
theorem ne_nil_and_not_mem_of_single {name : Bytes} (h : components name = [name]) :
    name ≠ [] ∧ 47 ∉ name := by
  have hmem : name ∈ components name := by
    rw [h]
    exact List.mem_singleton_self name
  have hflat : name = name.filter (· ≠ 47) := by
    rw [← flatten_components, h]
    simp
  refine ⟨by simpa using (List.mem_filter.mp hmem).2, fun hslash => ?_⟩
  rw [hflat] at hslash
  simpa using (List.mem_filter.mp hslash).2

/-- Every name of a path is one component. -/
theorem components_of_mem {path name : Bytes} (h : name ∈ components path) :
    components name = [name] := by
  refine components_of_not_mem (fun hslash => ?_) (by simpa using (List.mem_filter.mp h).2)
  have hmem : (47 : UInt8) ∈ (components path).flatten := List.mem_flatten.mpr ⟨name, h, hslash⟩
  rw [flatten_components] at hmem
  simpa using (List.mem_filter.mp hmem).2

/-- A joined path starts where its first part does. -/
theorem origin_join {cwd : Location} {a : Bytes} (h : a ≠ []) (b : Bytes) :
    origin cwd (a ++ b) = origin cwd a := by
  unfold origin
  rw [List.head?_append_of_ne_nil a h]

/-- A joined path leads to where its second part leads from its first. -/
theorem normalize_join {cwd : Location} {a : Bytes} (h : a ≠ []) (b : Bytes) :
    normalize cwd (a ++ 47 :: b) = (components b).foldl enter (normalize cwd a) := by
  unfold normalize
  rw [origin_join h, components_join, List.foldl_append]

/-- One more name after a climb and a descent: `.` changes neither, `..` takes back the descent
or climbs higher. -/
def follow (state : Nat × List Bytes) (name : Bytes) : Nat × List Bytes :=
  if name = lit "." then state
  else if name = lit ".." then
    if state.2 = [] then (state.1 + 1, []) else (state.1, state.2.dropLast)
  else (state.1, state.2 ++ [name])

/-- The levels that a list of names climbs, and the names it then goes down by. -/
def collapse (names : List Bytes) : Nat × List Bytes := names.foldl follow (0, [])

/-- A place some levels up; the root is its own parent. -/
def ascend (up : Nat) (base : Location) : Location := base.take (base.length - up)

/-- The parent of the place some levels up is one level higher. -/
theorem dropLast_ascend (up : Nat) (base : Location) :
    (ascend up base).dropLast = ascend (up + 1) base := by
  unfold ascend
  rw [List.dropLast_eq_take, List.take_take, List.length_take]
  congr 1
  omega

/-- Following a name from a place is following it in the collapsed names. -/
theorem enter_ascend (base : Location) (state : Nat × List Bytes) (name : Bytes) :
    enter (ascend state.1 base ++ state.2) name =
      ascend (follow state name).1 base ++ (follow state name).2 := by
  unfold enter follow
  by_cases hdot : name = lit "."
  · rw [if_pos hdot, if_pos hdot]
  rw [if_neg hdot, if_neg hdot]
  by_cases hup : name = lit ".."
  · rw [if_pos hup, if_pos hup]
    by_cases hdown : state.2 = []
    · rw [if_pos hdown, hdown, List.append_nil, List.append_nil, dropLast_ascend]
    · rw [if_neg hdown, List.dropLast_append_of_ne_nil hdown]
  · rw [if_neg hup, if_neg hup, List.append_assoc]

/-- Where names lead from a place: up, and down again. -/
theorem foldl_enter_eq (base : Location) (names : List Bytes) :
    names.foldl enter base = ascend (collapse names).1 base ++ (collapse names).2 := by
  induction names using List.reverseRecOn with
  | nil => simp [collapse, ascend]
  | append_singleton names name ih =>
      rw [List.foldl_concat, ih, enter_ascend, collapse, collapse, List.foldl_concat]

/-- The names that are gone down by are some of those that are followed. -/
theorem collapse_subset (names : List Bytes) : (collapse names).2 ⊆ names := by
  induction names using List.reverseRecOn with
  | nil => exact List.Subset.refl _
  | append_singleton names name ih =>
      rw [collapse, List.foldl_concat, ← collapse]
      have hmore : (collapse names).2 ⊆ names ++ [name] := fun part hpart =>
        List.mem_append_left _ (ih hpart)
      unfold follow
      split
      · exact hmore
      · split
        · split
          · exact List.nil_subset _
          · exact fun part hpart => hmore (List.mem_of_mem_dropLast hpart)
        · exact List.append_subset.mpr ⟨hmore, by simp⟩

/-- Below the place that names are followed from, they lead through none but themselves. -/
theorem subset_of_foldl_enter {base rel : Location} {names : List Bytes}
    (h : base ++ rel = names.foldl enter base) : rel ⊆ names := by
  rw [foldl_enter_eq] at h
  intro part hpart
  refine collapse_subset names ?_
  obtain ⟨extra, hbase, hrel⟩ | ⟨rest, -, hdown⟩ := List.append_eq_append_iff.mp h
  · -- a climb does not lead further down than it started
    have hshorter : (ascend (collapse names).1 base).length ≤ base.length :=
      List.length_take_le' _ _
    rw [hbase, List.length_append] at hshorter
    have hnone : extra = [] := List.eq_nil_of_length_eq_zero (by omega)
    rwa [hrel, hnone] at hpart
  · rw [hdown]
    exact List.mem_append_right _ hpart

/-- Names stay at or below the place they are followed from exactly when they go down by the
levels of the place that they climb first. -/
theorem inside_iff (base : Location) (names : List Bytes) :
    base <+: names.foldl enter base ↔
      base.drop (base.length - (collapse names).1) <+: (collapse names).2 := by
  have hsplit : base = ascend (collapse names).1 base ++
      base.drop (base.length - (collapse names).1) := (List.take_append_drop _ base).symm
  rw [foldl_enter_eq]
  conv_lhs => arg 1; rw [hsplit]
  exact List.prefix_append_right_inj _

end Dvws.Files
