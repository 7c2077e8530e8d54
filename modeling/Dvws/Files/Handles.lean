import Mathlib.Logic.Function.Basic
import Dvws.Bytes

/-!
# Names, files and open handles

On a disk a name leads to a file, and what is opened is the file: it can lose its name, or be
emptied by somebody else, and a handle writes on at its own offset. `overwrite_take` is the case
of writers that all write the same text: each part of it that is written leaves a beginning of the
text at least as long as what the writer has come to.
-/

namespace Dvws.Files

/-- Files are numbered; a name leads to at most one of them, and `unused` is the next number. -/
structure Disk (ν : Type*) where
  names : ν → Option Nat
  contents : Nat → Bytes
  unused : Nat

namespace Disk

variable {ν : Type*} [DecidableEq ν]

/-- The contents of the file that a name leads to. -/
def read (disk : Disk ν) (name : ν) : Option Bytes := (disk.names name).map disk.contents

/-- `fopen(name, "wb")`: the file is emptied, or made if there is none. -/
def truncate (disk : Disk ν) (name : ν) : Disk ν × Nat :=
  match disk.names name with
  | some file => ({ disk with contents := Function.update disk.contents file [] }, file)
  | none =>
      (⟨Function.update disk.names name (some disk.unused),
        Function.update disk.contents disk.unused [], disk.unused + 1⟩, disk.unused)

/-- `remove(name)`: the name is gone, the file stays with those who have it open. -/
def remove (disk : Disk ν) (name : ν) : Disk ν :=
  { disk with names := Function.update disk.names name none }

/-- A text with some bytes of it written over, from an offset on; a gap before it reads as NUL. -/
def overwrite (text : Bytes) (offset : Nat) (data : Bytes) : Bytes :=
  (text ++ List.replicate (offset - text.length) 0).take offset ++ data ++
    text.drop (offset + data.length)

/-- A write through a handle at its offset. -/
def write (disk : Disk ν) (file offset : Nat) (data : Bytes) : Disk ν :=
  { disk with
    contents := Function.update disk.contents file (overwrite (disk.contents file) offset data) }

/-- After a `truncate` the name leads to the file it has opened. -/
theorem truncate_names (disk : Disk ν) (name : ν) :
    (disk.truncate name).1.names name = some (disk.truncate name).2 := by
  unfold truncate
  split
  · next file h => exact h
  · simp

/-- The file that a truncation opens is empty. -/
theorem truncate_contents (disk : Disk ν) (name : ν) :
    (disk.truncate name).1.contents (disk.truncate name).2 = [] := by
  unfold truncate
  split
  · simp
  · simp

/-- A file that had the name before is the one that is opened. -/
theorem truncate_file {disk : Disk ν} {name : ν} {file : Nat} (h : disk.names name = some file) :
    (disk.truncate name).2 = file := by
  simp [truncate, h]

end Disk

/-- Writing the next part of a text over a beginning of the text leaves the longer beginning. -/
theorem overwrite_take {whole data : Bytes} {reached offset : Nat} (hreached : offset ≤ reached)
    (hle : reached ≤ whole.length) (hdata : data <+: whole.drop offset) :
    Disk.overwrite (whole.take reached) offset data =
      whole.take (max reached (offset + data.length)) := by
  have hlength : (whole.take reached).length = reached := by
    rw [List.length_take, Nat.min_eq_left hle]
  have hwritten : whole.take offset ++ data = whole.take (offset + data.length) := by
    rw [List.take_add, ← List.prefix_iff_eq_take.mp hdata]
  unfold Disk.overwrite
  rw [hlength, Nat.sub_eq_zero_of_le hreached, List.replicate_zero, List.append_nil,
    List.take_take, Nat.min_eq_left hreached, hwritten]
  obtain hlonger | hshorter := Nat.le_total reached (offset + data.length)
  · rw [Nat.max_eq_right hlonger, List.drop_of_length_le (by rw [hlength]; exact hlonger),
      List.append_nil]
  · have hbegin : whole.take (offset + data.length) =
        (whole.take reached).take (offset + data.length) := by
      rw [List.take_take, Nat.min_eq_left hshorter]
    rw [Nat.max_eq_left hshorter, hbegin, List.take_append_drop]

/-- A writer that goes on with its text keeps the file a beginning of that text, which reaches at
least as far as before, and as far as the writer has come. -/
theorem overwrite_prefix {whole text data : Bytes} {offset : Nat} (htext : text <+: whole)
    (hreached : offset ≤ text.length) (hdata : data <+: whole.drop offset) :
    Disk.overwrite text offset data <+: whole ∧
      text.length ≤ (Disk.overwrite text offset data).length ∧
      offset + data.length ≤ (Disk.overwrite text offset data).length := by
  have htake : text = whole.take text.length := List.prefix_iff_eq_take.mp htext
  have hlonger := overwrite_take hreached htext.length_le hdata
  rw [← htake] at hlonger
  have hfits : offset + data.length ≤ whole.length := by
    have hle := hdata.length_le
    have hstart := htext.length_le
    rw [List.length_drop] at hle
    omega
  have hlength : (Disk.overwrite text offset data).length =
      max text.length (offset + data.length) := by
    rw [hlonger, List.length_take, Nat.min_eq_left (Nat.max_le.mpr ⟨htext.length_le, hfits⟩)]
  refine ⟨?_, ?_, ?_⟩
  · rw [hlonger]
    exact List.take_prefix _ _
  · rw [hlength]
    exact Nat.le_max_left _ _
  · rw [hlength]
    exact Nat.le_max_right _ _

end Dvws.Files
