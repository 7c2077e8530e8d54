import Dvws.Files.Paths

/-!
# Trees that grow below a directory

In a tree where every directory below a base lies in a directory (`Closed`), following ordinary
names from the base asks one thing only: whether the directory of the last name is there
(`walk_of_closed`). Putting a node into a tree changes what is at its place, and no other place
gains or loses a directory or a file.
-/

namespace Dvws.Files

variable {tree grown : FileTree} {base here loc l : Location}

/-- No name is `.` or `..`. -/
def Ordinary (names : List Bytes) : Prop := ∀ name ∈ names, name ≠ lit "." ∧ name ≠ lit ".."

/-- An ordinary name leads one level down. -/
theorem enter_ordinary {name : Bytes} (h : name ≠ lit "." ∧ name ≠ lit "..") :
    enter here name = here ++ [name] := by
  unfold enter
  rw [if_neg h.1, if_neg h.2]

/-- Following two lists of names is following the first and then, from there, the second. -/
theorem walk_append (first second : List Bytes) :
    walk tree here (first ++ second) =
      (walk tree here first >>= fun middle => walk tree middle second) := by
  induction first generalizing here with
  | nil => rfl
  | cons name names ih =>
      rw [List.cons_append, walk, walk]
      split
      · exact ih
      · rfl

/-- Where there are more directories, names lead to the same place. -/
theorem walk_mono (hgrown : ∀ l, tree.isDir l → grown.isDir l) {names : List Bytes}
    (h : walk tree here names = some loc) : walk grown here names = some loc := by
  induction names generalizing here with
  | nil => exact h
  | cons name names ih =>
      obtain ⟨hdir, hrest⟩ := Option.ite_none_right_eq_some.mp h
      rw [walk, if_pos (hgrown here hdir)]
      exact ih hrest

/-- What `stat` finds is where the names of the path lead. -/
theorem walk_of_stat {cwd : Location} {path : Bytes} {node : Node}
    (h : stat tree cwd path = some (loc, node)) :
    walk tree (origin cwd path) (components path) = some loc ∧ tree loc = some node := by
  obtain ⟨-, hfound⟩ := Option.ite_none_left_eq_some.mp h
  obtain ⟨walked, hwalk, hnode⟩ := Option.bind_eq_some_iff.mp hfound
  obtain ⟨found, hthere, hdir⟩ := Option.bind_eq_some_iff.mp hnode
  obtain ⟨-, hsame⟩ := Option.ite_none_left_eq_some.mp hdir
  obtain ⟨rfl, rfl⟩ := Prod.mk.inj (Option.some.inj hsame)
  exact ⟨hwalk, hthere⟩

/-- Every directory below the base lies in a directory. -/
def Closed (tree : FileTree) (base : Location) : Prop :=
  ∀ rel, rel ≠ [] → tree.isDir (base ++ rel) → tree.isDir (base ++ rel.dropLast)

/-- Ordinary names can be followed when the directory of the last one is there. -/
theorem walk_of_closed (hclosed : Closed tree base) {names : List Bytes} (hne : names ≠ [])
    (h : Ordinary names) :
    walk tree base names =
      if tree.isDir (base ++ names.dropLast) then some (base ++ names) else none := by
  induction names using List.reverseRecOn with
  | nil => exact absurd rfl hne
  | append_singleton names name ih =>
      have hname : name ≠ lit "." ∧ name ≠ lit ".." := h name (by simp)
      have hlast (here : Location) :
          walk tree here [name] = if tree.isDir here then some (here ++ [name]) else none := by
        rw [walk, walk, enter_ordinary hname]
      rw [walk_append, List.dropLast_concat]
      by_cases hnames : names = []
      · rw [hnames, List.append_nil]
        exact hlast base
      · rw [ih hnames fun other hother => h other (List.mem_append_left _ hother)]
        by_cases hdir : tree.isDir (base ++ names) = true
        · rw [if_pos (hclosed names hnames hdir), if_pos hdir, ← List.append_assoc]
          show walk tree (base ++ names) [name] = _
          rw [hlast, if_pos hdir]
        · rw [if_neg hdir]
          split
          · show walk tree (base ++ names) [name] = _
            rw [hlast, if_neg hdir]
          · rfl

/-- A directory that lists one more name is a directory. -/
theorem is_dir_add_name (name : Bytes) (node : Node) :
    (node.addName name).isDir = node.isDir := by
  cases node <;> rfl

/-- Only at the place of a new node a directory can appear. -/
theorem is_dir_put (node : Node) :
    (tree.put loc node).isDir l = if l = loc then node.isDir else tree.isDir l := by
  unfold FileTree.isDir FileTree.put
  by_cases hsame : l = loc
  · rw [if_pos hsame, if_pos hsame]
    rfl
  · rw [if_neg hsame, if_neg hsame]
    split
    · cases tree l with
      | none => rfl
      | some found => exact is_dir_add_name _ found
    · rfl

/-- Except at the place of a new node, nothing appears or disappears. -/
theorem put_eq_none_iff (node : Node) (h : l ≠ loc) :
    tree.put loc node l = none ↔ tree l = none := by
  unfold FileTree.put
  rw [if_neg h]
  split
  · exact Option.map_eq_none_iff
  · rfl

/-- A file elsewhere stays as it was. -/
theorem put_eq_file {node : Node} {content : Bytes} {mtime : Int} {readable : Bool}
    (h : l ≠ loc) (hfile : tree l = some (.file content mtime readable)) :
    tree.put loc node l = some (.file content mtime readable) := by
  unfold FileTree.put
  rw [if_neg h, hfile]
  split
  · rfl
  · rfl

/-- At its own place there is the new node. -/
theorem put_self (node : Node) : tree.put loc node loc = some node := if_pos rfl

/-- What is new in a tree after `mkdir` is at its place. -/
theorem made_of_make_dir {cwd : Location} {path : Bytes} {now : Int}
    (h : makeDir tree cwd path now l ≠ none) : tree l ≠ none ∨ l = normalize cwd path := by
  by_cases hplace : l = normalize cwd path
  · exact Or.inr hplace
  left
  unfold makeDir at h
  cases hloc : locate tree cwd path with
  | none => rwa [hloc] at h
  | some loc =>
      obtain ⟨-, hwalk⟩ := Option.ite_none_left_eq_some.mp hloc
      have hother : l ≠ loc := fun heq => hplace (heq.trans (walk_eq_foldl hwalk))
      rw [hloc] at h
      dsimp only at h
      split at h
      · rwa [Ne, put_eq_none_iff _ hother] at h
      · exact h

/-- What is new in a tree after `fopen` is at its place. -/
theorem made_of_create_file {cwd : Location} {path data : Bytes} {now : Int} {files : FileTree}
    (hcreate : createFile tree cwd path data now = some files) (h : files l ≠ none) :
    tree l ≠ none ∨ l = normalize cwd path := by
  by_cases hplace : l = normalize cwd path
  · exact Or.inr hplace
  left
  unfold createFile at hcreate
  cases hloc : locate tree cwd path with
  | none => simp [hloc] at hcreate
  | some loc =>
      obtain ⟨-, hwalk⟩ := Option.ite_none_left_eq_some.mp hloc
      have hother : l ≠ loc := fun heq => hplace (heq.trans (walk_eq_foldl hwalk))
      simp only [hloc] at hcreate
      obtain ⟨-, hput⟩ := Option.ite_none_left_eq_some.mp hcreate
      rwa [← Option.some.inj hput, Ne, put_eq_none_iff _ hother] at h

end Dvws.Files
