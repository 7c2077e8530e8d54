import Mathlib.Data.List.Infix
import Mathlib.Data.List.TakeDrop

/-!
# First occurrence of a substring

`find pat s` is the position of the first occurrence of `pat` in `s`, as `strstr` and
`std::string::find` compute it. Read `find_eq_some_iff` first: it characterizes the result by
the occurrence at that position and the absence of earlier ones. The lemmas after it say how
the search behaves on appended texts, which is what a reader of a delimited format needs.
-/

namespace Dvws.Text

variable {α : Type*} [DecidableEq α]

/-- The position of the first occurrence of `pat` in the given list. -/
def find (pat : List α) : List α → Option Nat
  | [] => if pat.isPrefixOf [] then some 0 else none
  | a :: s => if pat.isPrefixOf (a :: s) then some 0 else (find pat s).map (· + 1)

/-- A list starting with the pattern has it at position 0. -/
theorem find_of_starts_with {pat s : List α} (h : pat <+: s) : find pat s = some 0 := by
  cases s <;> simp [find, List.isPrefixOf_iff_prefix, h]

/-- Without an occurrence at its head, a list is searched from its second element on. -/
theorem find_cons_of_not_starts {pat s : List α} {a : α} (h : ¬ pat <+: a :: s) :
    find pat (a :: s) = (find pat s).map (· + 1) := by
  simp [find, List.isPrefixOf_iff_prefix, h]

/-- The pattern is found exactly in the lists that contain it. -/
theorem find_eq_none_iff {pat s : List α} : find pat s = none ↔ ¬ pat <:+: s := by
  induction s with
  | nil => simp [find]
  | cons a s ih =>
      by_cases h : pat <+: a :: s
      · simp [find_of_starts_with h, h.isInfix]
      · simp [find_cons_of_not_starts h, ih, List.infix_cons_iff, h]

/-- The search succeeds exactly on the lists that contain the pattern. -/
theorem exists_find_iff {pat s : List α} : (∃ i, find pat s = some i) ↔ pat <:+: s := by
  rw [← Option.ne_none_iff_exists', Ne, find_eq_none_iff, not_not]

/-- The result is an occurrence, and no smaller position is one. -/
theorem find_eq_some_iff {pat s : List α} {i : Nat} :
    find pat s = some i ↔
      i ≤ s.length ∧ pat <+: s.drop i ∧ ∀ j < i, ¬ pat <+: s.drop j := by
  induction s generalizing i with
  | nil =>
      cases i <;> cases pat <;> simp [find, List.isPrefixOf]
  | cons a s ih =>
      by_cases h : pat <+: a :: s
      · rw [find_of_starts_with h]
        constructor
        · rintro ⟨⟩
          exact ⟨Nat.zero_le _, h, by omega⟩
        · rintro ⟨_, _, hfirst⟩
          cases i with
          | zero => rfl
          | succ i => exact absurd h (hfirst 0 (by omega))
      · rw [find_cons_of_not_starts h]
        cases i with
        | zero => simp [h]
        | succ i =>
            simp only [Option.map_eq_some_iff, Nat.add_right_cancel_iff, exists_eq_right, ih,
              List.length_cons, List.drop_succ_cons, Nat.add_le_add_iff_right]
            refine and_congr_right fun _ => and_congr_right fun _ => ⟨fun hfirst j hj => ?_,
              fun hfirst j hj => hfirst (j + 1) (by omega)⟩
            cases j with
            | zero => exact h
            | succ j => exact hfirst j (by omega)

variable {pat s t : List α} {i : Nat}

/-- A successful search points into the list. -/
theorem find_le_length (h : find pat s = some i) : i ≤ s.length :=
  (find_eq_some_iff.mp h).1

/-- The found occurrence ends inside the list. -/
theorem find_add_length_le (h : find pat s = some i) : i + pat.length ≤ s.length := by
  obtain ⟨hi, hpat, _⟩ := find_eq_some_iff.mp h
  have hlen := hpat.length_le
  rw [List.length_drop] at hlen
  omega

/-- A successful search splits the list around the occurrence. -/
theorem eq_append_of_find (h : find pat s = some i) :
    s = s.take i ++ pat ++ s.drop (i + pat.length) := by
  obtain ⟨_, ⟨rest, hrest⟩, _⟩ := find_eq_some_iff.mp h
  have hdrop : s.drop (i + pat.length) = rest := by
    rw [← List.drop_drop, ← hrest, List.drop_left]
  rw [hdrop, List.append_assoc, hrest, List.take_append_drop]

/-- The first occurrence of a single element splits the list around it. -/
theorem eq_append_cons_of_find {c : α} (h : find [c] s = some i) :
    s = s.take i ++ c :: s.drop (i + 1) := by
  simpa using eq_append_of_find h

/-- An occurrence found in a list is still the first one after anything is appended. -/
theorem find_append_of_some (h : find pat s = some i) : find pat (s ++ t) = some i := by
  have hbound := find_add_length_le h
  obtain ⟨hi, hpat, hfirst⟩ := find_eq_some_iff.mp h
  refine find_eq_some_iff.mpr ⟨by simp; omega, ?_, fun j hj hocc => hfirst j hj ?_⟩
  · rw [List.drop_append_of_le_length hi]
    exact hpat.trans (List.prefix_append _ _)
  · rw [List.drop_append_of_le_length (by omega)] at hocc
    exact List.prefix_of_prefix_length_le hocc (List.prefix_append _ _)
      (by rw [List.length_drop]; omega)

/-- A text that the pattern's first element does not occur in is skipped. -/
theorem find_append_of_not_mem {c : α} {s : List α} (hc : c ∉ s) :
    find (c :: pat) (s ++ t) = (find (c :: pat) t).map (· + s.length) := by
  induction s with
  | nil => simp
  | cons a s ih =>
      have hnot : ¬ c :: pat <+: a :: (s ++ t) := by
        rw [List.cons_prefix_cons]
        exact fun h => hc (by simp [h.1])
      rw [List.cons_append, find_cons_of_not_starts hnot, ih fun hmem => hc (by simp [hmem])]
      cases find (c :: pat) t <;> simp [Nat.add_assoc]

/-- A pattern is found right after a text that its first element does not occur in. -/
theorem find_append_cons {c : α} {s : List α} (hc : c ∉ s) :
    find (c :: pat) (s ++ c :: pat ++ t) = some s.length := by
  rw [List.append_assoc, find_append_of_not_mem hc, find_of_starts_with (List.prefix_append _ _)]
  simp

/-- What precedes the first occurrence of a nonempty pattern does not contain it. -/
theorem find_take_eq_none (hpat : pat ≠ []) (h : find pat s = some i) :
    find pat (s.take i) = none := by
  by_contra hne
  obtain ⟨j, hj⟩ := Option.ne_none_iff_exists'.mp hne
  have hbound := find_add_length_le hj
  have hpos : 0 < pat.length := List.length_pos_iff.mpr hpat
  rw [List.length_take] at hbound
  have hfull := find_append_of_some (t := s.drop i) hj
  rw [List.take_append_drop, h] at hfull
  cases hfull
  omega

/-- A single element is found at the end of the longest run without it. -/
theorem find_singleton_append {c : α} {s : List α} (hc : c ∉ s) :
    find [c] (s ++ c :: t) = some s.length := by
  have hfind : find [c] (s ++ [c] ++ t) = some s.length := find_append_cons hc
  simpa using hfind

/-- A single element is found exactly in the lists that have it. -/
theorem find_singleton_eq_none_iff {c : α} : find [c] s = none ↔ c ∉ s := by
  rw [find_eq_none_iff, List.singleton_infix_iff]

/-- The text before the first occurrence of a single element does not contain it. -/
theorem not_mem_take_of_find {c : α} {s : List α} (h : find [c] s = some i) : c ∉ s.take i := by
  obtain ⟨_, _, hfirst⟩ := find_eq_some_iff.mp h
  intro hmem
  obtain ⟨j, hj, hget⟩ := List.mem_iff_getElem.mp hmem
  rw [List.length_take] at hj
  rw [List.getElem_take] at hget
  refine hfirst j (by omega) ?_
  rw [List.drop_eq_getElem_cons (by omega), hget]
  simp

/-- What comes before the pattern is a text without its first element exactly when the list starts
with that text and goes on with the pattern. -/
theorem take_eq_iff_of_find {c : α} {text : List α} (hc : c ∉ text)
    (h : find (c :: pat) s = some i) :
    s.take i = text ↔ text <+: s ∧ c :: pat <+: s.drop text.length := by
  constructor
  · rintro rfl
    rw [List.length_take_of_le (find_le_length h)]
    exact ⟨List.take_prefix _ _, (find_eq_some_iff.mp h).2.1⟩
  · intro hstarts
    obtain ⟨hbegins, tail, htail⟩ := hstarts
    have hfound : find (c :: pat) s = some text.length := by
      obtain ⟨rest, rfl⟩ := hbegins
      rw [List.drop_left] at htail
      rw [← htail, ← List.append_assoc]
      exact find_append_cons hc
    obtain rfl := Option.some.inj (h.symm.trans hfound)
    exact (List.prefix_iff_eq_take.mp hbegins).symm

/-- A text is skipped that does not contain the pattern and ends in something that no part of
the pattern is. -/
theorem find_append_of_barrier {front : List α} (hnot : ¬ pat <:+: front)
    (hlast : ∀ c ∈ front.getLast?, c ∉ pat) :
    find pat (front ++ t) = (find pat t).map (· + front.length) := by
  induction front with
  | nil => simp
  | cons a front ih =>
      have hstart : ¬ pat <+: a :: (front ++ t) := by
        intro hbegins
        rcases Nat.le_total pat.length (a :: front).length with hshort | hlong
        · have hinside : pat <+: a :: front :=
            List.prefix_of_prefix_length_le hbegins (List.prefix_append _ _) hshort
          exact hnot hinside.isInfix
        · have hwhole : a :: front <+: pat :=
            List.prefix_of_prefix_length_le (List.prefix_append _ _) hbegins hlong
          have hmem := List.getLast_mem (List.cons_ne_nil a front)
          exact hlast _ (List.getLast?_eq_some_getLast _) (hwhole.subset hmem)
      rw [List.cons_append, find_cons_of_not_starts hstart]
      by_cases hnil : front = []
      · subst hnil
        simp
      · rw [ih (fun h => hnot (List.infix_cons h)) fun c hc => hlast c ?_, Option.map_map]
        · rfl
        · rwa [List.getLast?_cons_of_ne_nil hnil]

omit [DecidableEq α] in
/-- A text ends in something that no part of the pattern is. -/
theorem last_not_mem {front : List α} {c : α} (hlast : front.getLast? = some c) (hc : c ∉ pat) :
    ∀ a ∈ front.getLast?, a ∉ pat := by
  rw [hlast]
  intro a ha
  obtain rfl := Option.some.inj ha
  exact hc

/-- What follows the first occurrence of the pattern. -/
def behind (pat s : List α) : Option (List α) :=
  (find pat s).map fun i => s.drop (i + pat.length)

/-- Behind the first occurrence of a single element stands what follows it. -/
theorem behind_singleton_append {c : α} (hc : c ∉ s) : behind [c] (s ++ c :: t) = some t := by
  rw [behind, find_singleton_append hc, Option.map_some, List.length_singleton,
    List.drop_length_add_append, List.drop_one, List.tail_cons]

/-- A skipped text plays no part in what follows the pattern. -/
theorem behind_of_barrier {front : List α} (hnot : ¬ pat <:+: front)
    (hlast : ∀ c ∈ front.getLast?, c ∉ pat) : behind pat (front ++ t) = behind pat t := by
  unfold behind
  rw [find_append_of_barrier hnot hlast, Option.map_map]
  congr 1
  funext i
  show (front ++ t).drop (i + front.length + pat.length) = t.drop (i + pat.length)
  rw [Nat.add_right_comm, Nat.add_comm _ front.length, ← List.drop_drop, List.drop_left]

/-- Behind a skipped text that does not have the pattern, and ends in an element that the pattern
does not have, the pattern is found at once. -/
theorem behind_append_of_barrier {front : List α} (hnot : ¬ pat <:+: front)
    (hlast : ∀ c ∈ front.getLast?, c ∉ pat) : behind pat (front ++ pat ++ t) = some t := by
  have hfind : find pat (pat ++ t) = some 0 := find_of_starts_with (List.prefix_append _ _)
  rw [List.append_assoc, behind_of_barrier hnot hlast, behind, hfind, Option.map_some,
    Nat.zero_add, List.drop_left]

/-- The text ends in the pattern, which stands nowhere before. -/
def EndsFirst (pat s : List α) : Prop := pat <:+ s ∧ ¬ pat <:+: s.dropLast

/-- What is put behind such a text is what follows the pattern. -/
theorem EndsFirst.behind_append (h : EndsFirst pat s) (t : List α) :
    behind pat (s ++ t) = some t := by
  obtain ⟨⟨front, rfl⟩, hfirst⟩ := h
  have hpat : pat ≠ [] := by
    rintro rfl
    exact hfirst (List.nil_infix)
  obtain ⟨i, hi⟩ := exists_find_iff.mpr (List.suffix_append front pat).isInfix
  have hbound := find_add_length_le hi
  rw [List.length_append] at hbound
  obtain ⟨hle, hocc, -⟩ := find_eq_some_iff.mp hi
  have hlast : i = front.length := by
    by_contra hne
    -- an earlier occurrence would end before the last element
    refine hfirst (List.IsInfix.trans ?_ (List.drop_suffix i _).isInfix)
    have hshort : pat.length ≤ ((front ++ pat).dropLast.drop i).length := by
      rw [List.length_drop, List.length_dropLast, List.length_append]
      omega
    have hwhole : (front ++ pat).dropLast.drop i <+: (front ++ pat).drop i :=
      (List.dropLast_prefix _).drop i
    exact (List.prefix_of_prefix_length_le hocc hwhole hshort).isInfix
  rw [behind, find_append_of_some hi, Option.map_some, hlast, ← List.length_append, List.drop_left]

/-- What follows the pattern stands behind such a text. -/
theorem exists_ends_first (hpat : pat ≠ []) (h : behind pat s = some t) :
    ∃ front, s = front ++ t ∧ EndsFirst pat front := by
  obtain ⟨i, hi, rfl⟩ := Option.map_eq_some_iff.mp h
  have hsplit := eq_append_of_find hi
  refine ⟨s.take i ++ pat, hsplit, List.suffix_append _ _, fun hinside => ?_⟩
  obtain ⟨j, hj⟩ := exists_find_iff.mpr hinside
  have hbound := find_add_length_le hj
  rw [List.length_dropLast, List.length_append, List.length_take] at hbound
  have hpos := List.length_pos_iff.mpr hpat
  have hwhole : s.take i ++ pat = (s.take i ++ pat).dropLast ++
      [(s.take i ++ pat).getLast (List.append_ne_nil_of_right_ne_nil _ hpat)] :=
    (List.dropLast_append_getLast _).symm
  have hsame : find pat s = some j := by
    rw [hsplit, hwhole, List.append_assoc]
    exact find_append_of_some hj
  rw [hi, Option.some.injEq] at hsame
  omega

end Dvws.Text
