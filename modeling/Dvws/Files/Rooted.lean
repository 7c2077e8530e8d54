import Dvws.Files.Growth
import Dvws.Files.Rendering

/-!
# Trees in which every node lies in a directory

A file system is rooted: there is a directory above everything that is there (`Rooted`). `mkdir` and
`fopen` keep it so, wherever their paths lead, keep every directory, and make nothing unreadable. In
a rooted tree the canonical path of a place leads to what is there (`stat_render`).
-/

namespace Dvws.Files

/-- Above everything that is there is a directory. -/
def Rooted (tree : FileTree) : Prop :=
  ∀ loc, loc ≠ [] → tree loc ≠ none → tree.isDir loc.dropLast

variable {tree : FileTree} {cwd here loc : Location} {names : List Bytes} {path data : Bytes}
  {now : Int}

/-- A directory is something. -/
theorem ne_none_of_is_dir (h : tree.isDir loc) : tree loc ≠ none := by
  intro hnone
  rw [FileTree.isDir, hnone] at h
  exact Bool.false_ne_true h

/-- Below any place the directories lie in directories. -/
theorem Rooted.closed (h : Rooted tree) : Closed tree [] :=
  fun rel hrel hdir => h rel hrel (ne_none_of_is_dir hdir)

/-- Where a walk leads that is no directory, there is one above, unless it is the root. -/
theorem Rooted.above_of_walk (h : Rooted tree) (hwalk : walk tree here names = some loc)
    (hstart : names ≠ [] ∨ here = []) (hnot : ¬ tree.isDir loc) :
    loc = [] ∨ tree.isDir loc.dropLast := by
  obtain rfl | ⟨front, last, rfl⟩ := List.eq_nil_or_concat names
  · obtain hnil | rfl := hstart
    · exact absurd rfl hnil
    · exact .inl (Option.some.inj hwalk).symm
  rw [List.concat_eq_append, walk_append] at hwalk
  obtain ⟨middle, -, hlast⟩ := Option.bind_eq_some_iff.mp hwalk
  obtain ⟨hdir, hloc⟩ := Option.ite_none_right_eq_some.mp hlast
  obtain rfl : enter middle last = loc := Option.some.inj hloc
  unfold enter at hnot ⊢
  split at hnot
  · exact absurd hdir hnot
  · next hdot =>
    rw [if_neg hdot]
    split at hnot
    · next hup =>
      rw [if_pos hup]
      -- the directory above a directory is one
      by_cases hroot : middle = []
      · exact .inl (by rw [hroot]; rfl)
      · exact absurd (h middle hroot (ne_none_of_is_dir hdir)) hnot
    · next hup =>
      rw [if_neg hup, List.dropLast_concat]
      exact .inr hdir

/-- A new node where no directory is keeps the tree rooted. -/
theorem Rooted.put (h : Rooted tree) (hnot : ¬ tree.isDir loc)
    (habove : loc = [] ∨ tree.isDir loc.dropLast) (node : Node) : Rooted (tree.put loc node) := by
  intro l hl hthere
  rw [is_dir_put]
  by_cases hsame : l = loc
  · subst hsame
    have hother : l.dropLast ≠ l := by
      intro heq
      have hlength := congrArg List.length heq
      rw [List.length_dropLast] at hlength
      have hpos := List.length_pos_iff.mpr hl
      omega
    rw [if_neg hother]
    exact habove.resolve_left hl
  · have hdir : tree.isDir l.dropLast := by
      rw [Ne, put_eq_none_iff _ hsame] at hthere
      exact h l hl hthere
    have hother : l.dropLast ≠ loc := by
      rintro rfl
      exact hnot hdir
    rwa [if_neg hother]

/-- A path that does not start at the root has names. -/
theorem names_or_root (hpath : path ≠ []) : components path ≠ [] ∨ origin cwd path = [] := by
  by_cases hhead : path.head? = some 47
  · exact .inr (if_pos hhead)
  · left
    obtain ⟨c, rest, rfl⟩ := List.exists_cons_of_ne_nil hpath
    have hc : c ≠ 47 := by simpa using hhead
    intro hnone
    have hmem : ∃ name ∈ components (c :: rest), c ∈ name :=
      (exists_mem_components_iff hc).mpr List.mem_cons_self
    obtain ⟨name, hname, -⟩ := hmem
    rw [hnone] at hname
    cases hname

/-- Where a path leads that is no directory, there is one above. -/
theorem Rooted.above_of_locate (h : Rooted tree) (hloc : locate tree cwd path = some loc)
    (hnot : ¬ tree.isDir loc) : loc = [] ∨ tree.isDir loc.dropLast := by
  obtain ⟨hpath, hwalk⟩ := Option.ite_none_left_eq_some.mp hloc
  exact h.above_of_walk hwalk (names_or_root hpath) hnot

/-- What an operation on the files leaves as it was: rooted trees are rooted, directories are
there, and what cannot be read is what could not be read before. -/
structure Kept (before after : FileTree) : Prop where
  rooted : Rooted before → Rooted after
  dirs : ∀ l, before.isDir l → after.isDir l
  readable : ∀ l content mtime, after l = some (.file content mtime false) →
    before l = some (.file content mtime false)

/-- A tree to which nothing is done is `Kept`. -/
theorem Kept.refl (tree : FileTree) : Kept tree tree := ⟨id, fun _ => id, fun _ _ _ => id⟩

/-- A tree that one operation after another leaves `Kept` is `Kept` in the end. -/
theorem Kept.trans {first second third : FileTree} (h : Kept first second)
    (h' : Kept second third) : Kept first third :=
  ⟨h'.rooted ∘ h.rooted, fun l hdir => h'.dirs l (h.dirs l hdir),
    fun l content mtime hfile => h.readable l content mtime (h'.readable l content mtime hfile)⟩

/-- A readable node put where no directory is, below one, leaves the tree `Kept`. -/
theorem kept_put {node : Node} (hnot : ¬ tree.isDir loc)
    (habove : Rooted tree → loc = [] ∨ tree.isDir loc.dropLast) (hnode : node.readable = true) :
    Kept tree (tree.put loc node) := by
  refine ⟨fun h => h.put hnot (habove h) node, fun l hdir => ?_, fun l content mtime hfile => ?_⟩
  · have hother : l ≠ loc := by
      rintro rfl
      exact hnot hdir
    rwa [is_dir_put, if_neg hother]
  · by_cases hsame : l = loc
    · rw [hsame, put_self, Option.some.injEq] at hfile
      rw [hfile] at hnode
      cases hnode
    · unfold FileTree.put at hfile
      rw [if_neg hsame] at hfile
      split at hfile
      · cases hthere : tree l with
        | none =>
            rw [hthere] at hfile
            cases hfile
        | some found =>
            cases found with
            | file other time readable =>
                rw [hthere] at hfile
                exact hfile
            | dir =>
                rw [hthere] at hfile
                cases hfile
      · exact hfile

/-- `mkdir` leaves the tree `Kept`. -/
theorem kept_make_dir : Kept tree (makeDir tree cwd path now) := by
  unfold makeDir
  cases hloc : locate tree cwd path with
  | none => exact Kept.refl tree
  | some loc =>
      dsimp only
      split
      · next hnone =>
        have hnot : ¬ tree.isDir loc := fun hdir => ne_none_of_is_dir hdir hnone
        exact kept_put hnot (fun h => h.above_of_locate hloc hnot) rfl
      · exact Kept.refl tree

/-- `fopen` for writing leaves the tree `Kept`. -/
theorem kept_create_file {files : FileTree} (h : createFile tree cwd path data now = some files) :
    Kept tree files := by
  unfold createFile at h
  cases hloc : locate tree cwd path with
  | none =>
      rw [hloc] at h
      cases h
  | some loc =>
      rw [hloc] at h
      obtain ⟨hfree, hput⟩ := Option.ite_none_left_eq_some.mp h
      rw [not_or] at hfree
      rw [← Option.some.inj hput]
      exact kept_put hfree.2 (fun h => h.above_of_locate hloc hfree.2) rfl

/-- The path of a place ends in no slash. -/
theorem getLast_render (hloc : Proper loc) (hne : loc ≠ []) : (render loc).getLast? ≠ some 47 := by
  obtain rfl | ⟨front, name, rfl⟩ := List.eq_nil_or_concat loc
  · exact absurd rfl hne
  · have hsingle := hloc.single name (by simp)
    obtain ⟨hnonempty, hnot⟩ := ne_nil_and_not_mem_of_single hsingle
    have hsplit : render (front ++ [name]) =
        (front.flatMap fun part => 47 :: part) ++ 47 :: name := by
      rw [render, if_neg (by simp), List.flatMap_append, List.flatMap_singleton]
    rw [List.concat_eq_append, hsplit, List.append_cons,
      List.getLast?_append_of_ne_nil _ hnonempty]
    exact fun hends => hnot (List.mem_of_getLast? hends)

/-- In a rooted tree the path of a place leads to what is there. -/
theorem stat_render (h : Rooted tree) (hloc : Proper loc) (hne : loc ≠ []) :
    stat tree cwd (render loc) = (tree loc).map fun node => (loc, node) := by
  have habs : (render loc).head? = some 47 := head_render loc
  have hlast := getLast_render hloc hne
  have hwalk : walk tree (origin cwd (render loc)) (components (render loc)) =
      if tree.isDir loc.dropLast then some loc else none := by
    have hstart : origin cwd (render loc) = [] := if_pos habs
    rw [hstart, components_render hloc.single,
      walk_of_closed h.closed hne hloc.ordinary]
    rfl
  have hpath : render loc ≠ [] := by
    intro hnil
    rw [hnil] at habs
    cases habs
  unfold stat
  rw [if_neg hpath, hwalk]
  cases hthere : tree loc with
  | none =>
      split
      · show (tree loc).bind _ = _
        rw [hthere]
        rfl
      · rfl
  | some node =>
      have hdir : tree.isDir loc.dropLast := h loc hne (by rw [hthere]; exact Option.some_ne_none _)
      rw [if_pos hdir]
      show (tree loc).bind _ = _
      rw [hthere]
      exact if_neg fun hslash => hlast hslash.1

end Dvws.Files
