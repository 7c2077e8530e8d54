import Dvws.Deployment.Extraction
import Dvws.Files.Growth

/-!
# Names of archived files

The name of a file in an archive is the names of its directories and its own, with slashes
between them. `write_file` makes the directory that `directories` names, and opens the file there.
-/

namespace Dvws

open Files

/-- The directories that a name goes through. -/
def directories (name : Bytes) : List Bytes := components ((parentPath name).getD [])

/-- The name is that of a directory. -/
def EndsInSlash (name : Bytes) : Prop := name.getLast? = some 47

instance (name : Bytes) : Decidable (EndsInSlash name) :=
  inferInstanceAs (Decidable (_ = _))

/-- Normal form: relative, without empty parts, `.` and `..`; a directory ends in one slash. -/
def IsNormal (name : Bytes) : Prop :=
  ∀ part ∈ (if EndsInSlash name then name.dropLast else name).splitOn 47,
    part ≠ [] ∧ part ≠ lit "." ∧ part ≠ lit ".."

instance (name : Bytes) : Decidable (IsNormal name) :=
  inferInstanceAs (Decidable (∀ part ∈ _, _))

variable {name : Bytes}

/-- A name in normal form is not empty. -/
theorem IsNormal.ne_nil (h : IsNormal name) : name ≠ [] := by
  rintro rfl
  exact (h [] (by decide)).1 rfl

/-- The parts of a file's name are its components. -/
theorem IsNormal.components_eq (h : IsNormal name) (hfile : ¬ EndsInSlash name) :
    components name = name.splitOn 47 := by
  rw [IsNormal, if_neg hfile] at h
  exact List.filter_eq_self.mpr fun part hpart => decide_eq_true (h part hpart).1

/-- The components of a normal file name are ordinary. -/
theorem IsNormal.ordinary (h : IsNormal name) (hfile : ¬ EndsInSlash name) :
    Ordinary (components name) := by
  rw [h.components_eq hfile]
  rw [IsNormal, if_neg hfile] at h
  exact fun part hpart => (h part hpart).2

/-- Files of different names have different components. -/
theorem IsNormal.components_inj {other : Bytes} (h : IsNormal name) (hother : IsNormal other)
    (hfile : ¬ EndsInSlash name) (hfile' : ¬ EndsInSlash other)
    (hsame : components name = components other) : name = other := by
  rw [h.components_eq hfile, hother.components_eq hfile'] at hsame
  have hjoined (text : Bytes) : [47].intercalate (text.splitOn 47) = text :=
    List.intercalate_splitOn 47
  rw [← hjoined name, hsame, hjoined]

/-- The components of a file's name are its directories and its own name. -/
theorem exists_components_eq (hne : name ≠ []) (hfile : ¬ EndsInSlash name) :
    ∃ leaf, components name = directories name ++ [leaf] := by
  by_cases hslash : (47 : UInt8) ∈ name
  · obtain ⟨front, back, hback, hnot⟩ :=
      List.eq_append_cons_of_mem (List.mem_reverse.mpr hslash)
    have hname : name = back.reverse ++ 47 :: front.reverse := by
      rw [← List.reverse_reverse name, hback]
      simp
    have hleaf : front.reverse ≠ [] := by
      intro hnil
      refine hfile ?_
      rw [EndsInSlash, hname, hnil]
      simp
    have hnotleaf : (47 : UInt8) ∉ front.reverse := fun h => hnot (List.mem_reverse.mp h)
    have hparent : parentPath front.reverse = none := if_neg hnotleaf
    refine ⟨front.reverse, ?_⟩
    rw [directories, hname, parent_path_join, hparent, components_join,
      components_of_not_mem hnotleaf hleaf]
    rfl
  · have hparent : parentPath name = none := if_neg hslash
    refine ⟨name, ?_⟩
    rw [directories, hparent, components_of_not_mem hslash hne]
    rfl

/-- The directories of a file are ordinary names. -/
theorem IsNormal.directories_ordinary (h : IsNormal name) (hfile : ¬ EndsInSlash name) :
    Ordinary (directories name) := by
  obtain ⟨leaf, hleaf⟩ := exists_components_eq h.ne_nil hfile
  intro part hpart
  refine h.ordinary hfile part ?_
  rw [hleaf]
  exact List.mem_append_left _ hpart

end Dvws
