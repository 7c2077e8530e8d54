import Mathlib.Data.List.Infix

/-!
# Words between a mark and a stop

A reader that knows one mark finds every place where it starts, and takes the word behind it up to
the next stop (`enclosed`). It passes over a text in which the mark cannot start, whatever follows
(`Avoids`).
-/

namespace Dvws.Text

variable {α : Type*} [DecidableEq α]

/-- The words that stand between the mark and the next stop. -/
def enclosed (mark : List α) (stop : α) : List α → List (List α)
  | [] => []
  | c :: rest =>
      if mark <+: c :: rest then
        ((c :: rest).drop mark.length).takeWhile (· ≠ stop) :: enclosed mark stop rest
      else enclosed mark stop rest

/-- The mark starts nowhere in the text, and would not with more text behind it. -/
def Avoids (mark : List α) : List α → Prop
  | [] => True
  | c :: rest => ¬ mark <+: c :: rest ∧ ¬ c :: rest <+: mark ∧ Avoids mark rest

instance decidableAvoids (mark : List α) : (text : List α) → Decidable (Avoids mark text)
  | [] => .isTrue trivial
  | c :: rest =>
      have := decidableAvoids mark rest
      inferInstanceAs (Decidable (¬ mark <+: c :: rest ∧ ¬ c :: rest <+: mark ∧ Avoids mark rest))

variable {mark text word : List α} {stop : α}

omit [DecidableEq α] in
/-- A text without the first character of the mark avoids it. -/
theorem avoids_of_not_mem {first : α} {more : List α} (h : first ∉ text) :
    Avoids (first :: more) text := by
  induction text with
  | nil => trivial
  | cons c rest ih =>
      rw [List.mem_cons, not_or] at h
      refine ⟨fun hstarts => ?_, fun hstarts => ?_, ih h.2⟩
      · exact h.1 (List.cons_prefix_cons.mp hstarts).1
      · exact h.1 (List.cons_prefix_cons.mp hstarts).1.symm

/-- The reader passes over what avoids the mark. -/
theorem enclosed_append (h : Avoids mark text) (stop : α) (rest : List α) :
    enclosed mark stop (text ++ rest) = enclosed mark stop rest := by
  induction text with
  | nil => rfl
  | cons c text ih =>
      obtain ⟨hlonger, hshorter, havoids⟩ := h
      have hnot : ¬ mark <+: c :: (text ++ rest) := by
        intro hstarts
        have hfront : c :: text <+: c :: (text ++ rest) := ⟨rest, rfl⟩
        -- a mark that started here would lie in the text, or reach behind its end
        obtain hstarts | hstarts := List.prefix_or_prefix_of_prefix hstarts hfront
        · exact hlonger hstarts
        · exact hshorter hstarts
      rw [List.cons_append, enclosed, if_neg hnot]
      exact ih havoids

/-- `enclosed` takes the word that stands behind the mark and goes on behind its end. -/
theorem enclosed_mark {first : α} {more : List α} (hmore : first ∉ more) (hword : first ∉ word)
    (hfirst : first ≠ stop) (hstop : stop ∉ word) (rest : List α) :
    enclosed (first :: more) stop (first :: more ++ word ++ stop :: rest) =
      word :: enclosed (first :: more) stop rest := by
  have htake : (word ++ stop :: rest).takeWhile (· ≠ stop) = word := by
    rw [List.takeWhile_append_of_pos fun c hc => decide_eq_true (ne_of_mem_of_not_mem hc hstop),
      List.takeWhile_cons_of_neg (by simp), List.append_nil]
  have hbehind : Avoids (first :: more) (more ++ word ++ [stop]) := by
    refine avoids_of_not_mem ?_
    simp only [List.mem_append, List.mem_singleton, not_or]
    exact ⟨⟨hmore, hword⟩, hfirst⟩
  have htext : first :: more ++ word ++ stop :: rest =
      first :: (more ++ word ++ [stop] ++ rest) := by
    simp only [List.cons_append, List.append_assoc, List.nil_append]
  have hstarts : first :: more <+: first :: (more ++ word ++ [stop] ++ rest) := by
    rw [← htext, List.append_assoc]
    exact List.prefix_append _ _
  rw [htext, enclosed, if_pos hstarts, enclosed_append hbehind, ← htext, List.append_assoc,
    List.drop_left, htake]

end Dvws.Text
