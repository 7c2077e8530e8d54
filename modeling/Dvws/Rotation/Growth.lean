import Mathlib.Algebra.BigOperators.Group.Finset.Piecewise
import Mathlib.Data.Fintype.Card
import Mathlib.Data.List.Infix
import Mathlib.Order.Bounds.Basic
import Dvws.Rotation.Oldest
import Dvws.Transition.Tally

/-!
# How large the log grows

Every worker looks at the size of the log before it appends, but others may append in between. A
worker that found the log small adds one entry to it, and one that found it large first sees it
renamed, so the log exceeds its limit by at most an entry of each worker; and that can happen.
-/

namespace Dvws.Rotation

open Transition

variable {ι : Type*}

/-- The size of the log file of an age. -/
def State.size (s : State ι) (age : Nat) : Nat := ((s.entries age).map List.length).sum

/-- Nothing that was appended is longer than `limit`. -/
def Short (limit : Nat) (steps : List (Label ι)) : Prop :=
  ∀ entry ∈ appended steps, entry.length ≤ limit

/-- `stat` finds the log grown when its size has reached the limit. -/
theorem has_grown_iff (s : State ι) : s.hasGrown = true ↔ maxLogBytes ≤ s.size 0 := by
  unfold State.hasGrown State.size State.entries
  cases s.files 0 with
  | none => exact iff_of_false Bool.false_ne_true (by decide)
  | some entries => exact decide_eq_true_iff

/-- The last call of a rotation. -/
abbrev renameLog : Call := .rename (0 : Fin 3)

/-- No file grows in a call, and each that is there was there before. -/
theorem size_effect_lt {s : State ι} {bound : Nat} (hsizes : ∀ age, s.size age < bound)
    (call : Call) (pending : ι → List Call) (age : Nat) :
    (State.mk (s.effect call) pending).size age < bound := by
  have hpositive : 0 < bound := Nat.zero_lt_of_lt (hsizes 0)
  cases call with
  | stat => exact hsizes age
  | append => exact hsizes age
  | remove =>
      unfold State.size
      rw [entries_remove]
      split
      · exact hpositive
      · exact hsizes age
  | rename source =>
      cases hsource : s.files source.val with
      | none =>
          have hsame : s.effect (.rename source) = s.files := by
            simp only [State.effect, hsource]
          rw [hsame]
          exact hsizes age
      | some entries =>
          unfold State.size
          rw [entries_rename hsource]
          split
          · exact hsizes source.val
          · split
            · exact hpositive
            · exact hsizes age

/-- A log that was renamed is gone. -/
theorem size_rename_zero (s : State ι) (pending : ι → List Call) :
    (State.mk (s.effect renameLog) pending).size 0 = 0 := by
  unfold State.size
  cases hsource : s.files 0 with
  | none =>
      have hsame : s.effect renameLog = s.files := by
        have hlog : s.files (0 : Fin 3).val = none := hsource
        simp only [State.effect, hlog]
      rw [State.entries, hsame, hsource]
      rfl
  | some entries =>
      have hlog : s.files (0 : Fin 3).val = some entries := hsource
      rw [entries_rename hlog]
      rfl

/-- An entry adds its length to the log. -/
theorem size_append (s : State ι) (entry : Bytes) (pending : ι → List Call) :
    (State.mk (Function.update s.files 0 (some (s.entries 0 ++ [entry]))) pending).size 0 =
      s.size 0 + entry.length := by
  show (((Function.update s.files 0 (some (s.entries 0 ++ [entry])) 0).getD []).map
    List.length).sum = ((s.entries 0).map List.length).sum + entry.length
  rw [Function.update_self, Option.getD_some, List.map_append, List.sum_append]
  rfl

/-- The other calls of a rotation leave the log alone. -/
theorem size_zero_effect (s : State ι) {call : Call} (hcall : call ≠ renameLog)
    (pending : ι → List Call) : (State.mk (s.effect call) pending).size 0 = s.size 0 := by
  unfold State.size
  cases call with
  | stat => rfl
  | append => rfl
  | remove =>
      rw [entries_remove]
      rfl
  | rename source =>
      cases hsource : s.files source.val with
      | none =>
          have hsame : s.effect (.rename source) = s.files := by
            simp only [State.effect, hsource]
          rw [State.entries, hsame]
          rfl
      | some entries =>
          have hne : source.val ≠ 0 := fun hzero => hcall (congrArg Call.rename (Fin.ext hzero))
          rw [entries_rename hsource, if_neg (Nat.succ_ne_zero _).symm, if_neg (Ne.symm hne)]

variable [DecidableEq ι]

/-- When the calls of one worker change to some of a shape, all workers have calls of that shape. -/
theorem shape_update {s : State ι} {shape : List Call → Prop} (h : ∀ other, shape (s.pending other))
    {who : ι} {calls : List Call} (hcalls : shape calls) (other : ι) :
    shape (Function.update s.pending who calls other) := by
  by_cases heq : other = who
  · subst heq
    rw [Function.update_self]
    exact hcalls
  · rw [Function.update_of_ne heq]
    exact h other

/-- A worker is about to look at the log, or has the end of a rotation and its append left. -/
def Shape (calls : List Call) : Prop :=
  calls = [.stat, .append] ∨ calls ∈ (rotationCalls ++ [Call.append]).tails

/-- The first of a worker's calls determines the shape of those behind it. -/
theorem Shape.cases_cons {call : Call} {rest : List Call} (h : Shape (call :: rest)) :
    (call = .stat ∧ rest = [.append]) ∨ (call = .append ∧ rest = []) ∨
      (call = renameLog ∧ rest = [.append]) ∨
        (call ≠ renameLog ∧ call ≠ .stat ∧ call ≠ .append ∧ rest ≠ [.append] ∧ Shape rest) := by
  obtain hlook | hrotates := h
  · exact .inl (List.cons.inj hlook)
  · have htails : (rotationCalls ++ [Call.append]).tails = [
        [.remove, .rename (2 : Fin 3), .rename (1 : Fin 3), renameLog, .append],
        [.rename (2 : Fin 3), .rename (1 : Fin 3), renameLog, .append],
        [.rename (1 : Fin 3), renameLog, .append], [renameLog, .append], [.append], []] := by decide
    unfold Shape
    rw [htails] at hrotates ⊢
    simp only [List.mem_cons, List.cons.injEq, List.not_mem_nil, or_false] at hrotates
    obtain ⟨rfl, rfl⟩ | ⟨rfl, rfl⟩ | ⟨rfl, rfl⟩ | ⟨rfl, rfl⟩ | ⟨rfl, rfl⟩ | hnil := hrotates
    · exact .inr (.inr (.inr (by decide)))
    · exact .inr (.inr (.inr (by decide)))
    · exact .inr (.inr (.inr (by decide)))
    · exact .inr (.inr (.inl ⟨rfl, rfl⟩))
    · exact .inr (.inl ⟨rfl, rfl⟩)
    · cases hnil

/-! ## The bound -/

section Bound

variable [Fintype ι] {limit : Nat} {s s' : State ι}

/-- The workers that append without looking again. -/
def State.appending (s : State ι) : Nat := ∑ who, if s.pending who = [.append] then 1 else 0

omit [DecidableEq ι] in
/-- No more workers append than there are. -/
theorem appending_le (s : State ι) : s.appending ≤ Fintype.card ι := by
  unfold State.appending
  rw [← Finset.card_filter]
  exact Finset.card_filter_le _ _

/-- When one worker gets on, the number of those that append changes by it alone. -/
theorem appending_update (s : State ι) (who : ι) (files : Nat → Option (List Bytes))
    (calls : List Call) :
    (State.mk files (Function.update s.pending who calls)).appending +
        (if s.pending who = [.append] then 1 else 0) =
      s.appending + if calls = [.append] then 1 else 0 := by
  have hsum := sum_exchange (Finset.mem_univ who)
    (f := fun other => if s.pending other = [Call.append] then 1 else 0)
    (g := fun other => if Function.update s.pending who calls other = [Call.append] then 1 else 0)
    fun other hne => by rw [Function.update_of_ne hne]
  rw [Function.update_self] at hsum
  exact hsum

/-- The log has room for an entry of each worker that appends without looking again, and every file
was the log once. -/
structure Bounded (limit : Nat) (s : State ι) : Prop where
  shape : ∀ who, Shape (s.pending who)
  room : s.size 0 + s.appending * limit < maxLogBytes + Fintype.card ι * limit
  sizes : ∀ age, s.size age < maxLogBytes + Fintype.card ι * limit

/-- A step that leaves the files alone, and lets no more workers append, keeps the bound. -/
theorem Bounded.of_calls (hs : Bounded limit s) {who : ι} {calls : List Call}
    (hshape : Shape calls) (hcalls : calls ≠ [.append]) :
    Bounded limit ⟨s.files, Function.update s.pending who calls⟩ := by
  have hcount := appending_update s who s.files calls
  rw [if_neg hcalls, Nat.add_zero] at hcount
  refine ⟨shape_update hs.shape hshape, ?_, hs.sizes⟩
  have hless := Nat.mul_le_mul_right limit (Nat.le.intro hcount)
  exact Nat.lt_of_le_of_lt (Nat.add_le_add_left hless _) hs.room

/-- A call of a rotation, or a look at the log, keeps the bound. -/
theorem Bounded.call (hs : Bounded limit s) {who : ι} (h : next s (.call who) = some s') :
    Bounded limit s' := by
  obtain ⟨call, rest, hcalls, rfl⟩ := call_step h
  have hshape := hs.shape who
  rw [hcalls] at hshape
  obtain ⟨rfl, rfl⟩ | ⟨rfl, rfl⟩ | ⟨rfl, rfl⟩ | ⟨hlog, hstat, happend, hrest, hleft⟩ :=
    hshape.cases_cons
  · cases hgrown : s.hasGrown with
    | true =>
        -- the log has grown: the worker rotates before it appends
        have hremaining : s.remaining [.append] .stat = rotationCalls ++ [.append] := by
          rw [State.remaining, hgrown]
          rfl
        rw [hremaining]
        exact hs.of_calls (.inr ((List.mem_tails _ _).mpr (List.suffix_refl _))) (by decide)
    | false =>
        have hremaining : s.remaining [.append] .stat = [.append] := by
          rw [State.remaining, hgrown]
          rfl
        -- the log is small, and leaves room for an entry of every worker
        have hsmall : s.size 0 < maxLogBytes := by
          by_contra hlarge
          rw [(has_grown_iff s).mpr (Nat.le_of_not_lt hlarge)] at hgrown
          cases hgrown
        rw [hremaining]
        refine ⟨shape_update hs.shape (.inr ((List.mem_tails _ _).mpr ⟨rotationCalls, rfl⟩)), ?_,
          hs.sizes⟩
        exact Nat.add_lt_add_of_lt_of_le hsmall (Nat.mul_le_mul_right _ (appending_le _))
  · -- the append of an entry is a step of its own
    rw [next, hcalls] at h
    cases h
  · refine ⟨shape_update hs.shape (.inr ((List.mem_tails _ _).mpr ⟨rotationCalls, rfl⟩)), ?_,
      size_effect_lt hs.sizes _ _⟩
    rw [size_rename_zero, Nat.zero_add]
    -- the log is renamed away, so that a new one starts empty
    have hroom := Nat.mul_le_mul_right limit (appending_le (State.mk (s.effect renameLog)
      (Function.update s.pending who (s.remaining [.append] renameLog))))
    have hpositive : 0 < maxLogBytes := by decide
    omega
  · have hremaining : s.remaining rest call = rest := by
      cases call with
      | stat => exact absurd rfl hstat
      | _ => rfl
    rw [hremaining]
    have hcount := appending_update s who (s.effect call) rest
    rw [if_neg hrest, Nat.add_zero] at hcount
    refine ⟨shape_update hs.shape hleft, ?_, size_effect_lt hs.sizes _ _⟩
    rw [size_zero_effect s hlog]
    have hless := Nat.mul_le_mul_right limit (Nat.le.intro hcount)
    exact Nat.lt_of_le_of_lt (Nat.add_le_add_left hless _) hs.room

/-- An entry that is appended keeps the bound. -/
theorem Bounded.append (hs : Bounded limit s) {who : ι} {entry : Bytes}
    (hentry : entry.length ≤ limit) (h : next s (.append who entry) = some s') :
    Bounded limit s' := by
  have hfiles := append_step h
  obtain ⟨rest, hcalls, hpending⟩ : ∃ rest, s.pending who = .append :: rest ∧
      s'.pending = Function.update s.pending who rest := by
    simp only [next] at h
    split at h
    · cases h
      exact ⟨_, ‹_›, rfl⟩
    · cases h
  have hshape := hs.shape who
  rw [hcalls] at hshape
  obtain rfl : rest = [] := by
    obtain ⟨hstat, -⟩ | ⟨-, hrest⟩ | ⟨hlog, -⟩ | ⟨-, -, happend, -⟩ := hshape.cases_cons
    · cases hstat
    · exact hrest
    · cases hlog
    · exact absurd rfl happend
  obtain ⟨files, pending⟩ := s'
  subst hfiles hpending
  have hlog := size_append s entry (Function.update s.pending who [])
  have hcount := appending_update s who
    (Function.update s.files 0 (some (s.entries 0 ++ [entry]))) []
  rw [if_pos hcalls, if_neg (by decide)] at hcount
  have hroom : (State.mk (Function.update s.files 0 (some (s.entries 0 ++ [entry])))
      (Function.update s.pending who [])).size 0 +
      (State.mk (Function.update s.files 0 (some (s.entries 0 ++ [entry])))
        (Function.update s.pending who [])).appending * limit <
      maxLogBytes + Fintype.card ι * limit := by
    have hbefore := hs.room
    rw [hlog]
    rw [← Nat.add_zero s.appending, ← hcount, Nat.succ_mul] at hbefore
    omega
  refine ⟨shape_update hs.shape (.inr ((List.mem_tails _ _).mpr (List.nil_suffix))), hroom,
    fun age => ?_⟩
  by_cases hage : age = 0
  · subst hage
    exact Nat.lt_of_le_of_lt (Nat.le_add_right _ _) hroom
  · have hsame : (State.mk (Function.update s.files 0 (some (s.entries 0 ++ [entry])))
        (Function.update s.pending who [])).size age = s.size age := by
      show (((Function.update s.files 0 _ age).getD []).map List.length).sum = _
      rw [Function.update_of_ne hage]
      rfl
    rw [hsame]
    exact hs.sizes age

/-- Every step keeps the bound. -/
theorem Bounded.step (hs : Bounded limit s) {l : Label ι} (hshort : Short limit [l])
    (h : next s l = some s') : Bounded limit s' := by
  cases l with
  | begin who =>
      simp only [next] at h
      split at h
      · cases h
        exact hs.of_calls (.inl rfl) (by decide)
      · cases h
  | call who => exact hs.call h
  | append who entry => exact hs.append (hshort entry List.mem_cons_self) h

/-- The bound holds after every run. -/
theorem bounded_of_run {steps : List (Label ι)} (hshort : Short limit steps)
    (h : run next steps .init = some s) : Bounded limit s := by
  refine run_induction (P := fun steps s => Short limit steps → Bounded limit s) ?_ ?_ h hshort
  · intro _
    have hnone : (State.init : State ι).appending = 0 := Finset.sum_eq_zero fun _ _ => rfl
    have hpositive : 0 < maxLogBytes + Fintype.card ι * limit :=
      Nat.add_pos_left (by decide) _
    refine ⟨fun _ => .inr ((List.mem_tails _ _).mpr List.nil_suffix), ?_, fun _ => hpositive⟩
    rw [hnone, Nat.zero_mul]
    exact hpositive
  · intro steps s l s' hrun hs hnext hall
    have hsplit : appended (steps ++ [l]) = appended steps ++ appended [l] := by simp [appended]
    unfold Short at hall
    rw [hsplit] at hall
    have hbefore := hs fun entry hmem => hall entry (List.mem_append_left _ hmem)
    exact hbefore.step (fun entry hmem => hall entry (List.mem_append_right _ hmem)) hnext

end Bound

/-! ## The bound is reached -/

section Reached

variable {limit : Nat} {s : State ι}

omit [DecidableEq ι] in
/-- Runs are put together, and so is what they append. -/
theorem Short.join {first second : List (Label ι)} (hfirst : Short limit first)
    (hsecond : Short limit second) : Short limit (first ++ second) := by
  intro entry hmem
  have hsplit : appended (first ++ second) = appended first ++ appended second := by
    simp [appended]
  rw [hsplit] at hmem
  obtain hmem | hmem := List.mem_append.mp hmem
  · exact hfirst entry hmem
  · exact hsecond entry hmem

/-- A worker without calls takes up a request and finds the log small. -/
theorem run_look {who : ι} (hidle : s.pending who = []) (hsmall : s.size 0 < maxLogBytes) :
    run next [.begin who, .call who] s =
      some ⟨s.files, Function.update s.pending who [.append]⟩ := by
  have hbegin : next s (.begin who) =
      some ⟨s.files, Function.update s.pending who [.stat, .append]⟩ := by
    simp only [next, hidle]
  have hgrown : s.hasGrown = false := by
    cases hgrown : s.hasGrown with
    | true => exact absurd ((has_grown_iff s).mp hgrown) (Nat.not_le_of_lt hsmall)
    | false => rfl
  have hcall : next ⟨s.files, Function.update s.pending who [.stat, .append]⟩ (.call who) =
      some ⟨s.files, Function.update s.pending who [.append]⟩ := by
    simp only [next, Function.update_self, Function.update_idem]
    show some (State.mk s.files (Function.update s.pending who
      ((if s.hasGrown then rotationCalls else []) ++ [Call.append]))) = _
    rw [hgrown]
    rfl
  rw [run_cons_of_next hbegin, run_cons_of_next hcall]
  rfl

/-- A worker that has looked appends its entry. -/
theorem run_append_entry {who : ι} (hlooked : s.pending who = [.append]) (entry : Bytes) :
    run next [.append who entry] s =
      some ⟨Function.update s.files 0 (some (s.entries 0 ++ [entry])),
        Function.update s.pending who []⟩ := by
  have happend : next s (.append who entry) =
      some ⟨Function.update s.files 0 (some (s.entries 0 ++ [entry])),
        Function.update s.pending who []⟩ := by
    simp only [next, hlooked]
  rw [run_cons_of_next happend]
  rfl

/-- The log gets to every size below its limit, with no worker at work. -/
theorem exists_filled (who : ι) (hlimit : 0 < limit) {size : Nat} (hsize : size < maxLogBytes) :
    ∃ (steps : List (Label ι)) (s : State ι), Short limit steps ∧
      run next steps .init = some s ∧ s.pending = (fun _ => []) ∧ s.size 0 = size := by
  induction size with
  | zero => exact ⟨[], .init, fun _ hmem => absurd hmem List.not_mem_nil, rfl, rfl, rfl⟩
  | succ size ih =>
      obtain ⟨steps, s, hshort, hrun, hidle, hfilled⟩ := ih (Nat.lt_of_succ_lt hsize)
      have hlook : run next [.begin who, .call who] s = _ :=
        run_look (congrFun hidle who) (hfilled ▸ Nat.lt_of_succ_lt hsize)
      have hlooked : (State.mk s.files (Function.update s.pending who [.append])).pending who =
          [.append] := Function.update_self who _ _
      have hgrow : run next (steps ++ ([.begin who, .call who] ++ [.append who [10]])) .init =
          run next [.append who [10]] ⟨s.files, Function.update s.pending who [.append]⟩ := by
        rw [run_append, hrun, Option.bind_eq_bind, Option.bind_some, run_append, hlook]
        rfl
      have hone : Short limit ([.begin who, .call who] ++ [Label.append who [10]]) := by
        intro entry hmem
        rw [List.mem_singleton.mp hmem]
        exact hlimit
      refine ⟨_, _, hshort.join hone, hgrow.trans (run_append_entry hlooked [10]), ?_, ?_⟩
      · show Function.update (Function.update s.pending who [.append]) who [] = _
        rw [hidle, Function.update_idem]
        exact Function.update_eq_self who _
      · rw [← hfilled]
        exact size_append s [10] _

/-- Before any of them appends, all of some workers have looked at a log that is small. -/
theorem exists_looked (limit : Nat) (workers : Finset ι) (hidle : s.pending = fun _ => [])
    (hsmall : s.size 0 < maxLogBytes) :
    ∃ steps, Short limit steps ∧ run next steps s =
      some ⟨s.files, fun who => if who ∈ workers then [.append] else []⟩ := by
  induction workers using Finset.induction_on with
  | empty =>
      refine ⟨[], fun _ hmem => absurd hmem List.not_mem_nil, ?_⟩
      simp only [Finset.notMem_empty, if_false, ← hidle]
      rfl
  | insert who workers hnew ih =>
      obtain ⟨steps, hshort, hrun⟩ := ih
      have hlook : run next [.begin who, .call who]
          ⟨s.files, fun who => if who ∈ workers then [.append] else []⟩ = _ :=
        run_look (if_neg hnew) hsmall
      have hpending : Function.update (fun who => if who ∈ workers then [Call.append] else []) who
          [.append] = fun other => if other ∈ insert who workers then [.append] else [] := by
        funext other
        by_cases heq : other = who
        · rw [heq, Function.update_self, if_pos (Finset.mem_insert_self who workers)]
        · rw [Function.update_of_ne heq]
          exact if_congr (Finset.mem_insert.trans (or_iff_right heq)).symm rfl rfl
      refine ⟨steps ++ [.begin who, .call who], hshort.join (fun _ hmem => ?_), ?_⟩
      · exact absurd hmem List.not_mem_nil
      · rw [run_append, hrun, ← hpending]
        exact hlook

/-- Workers that have looked can append one after the other, without looking again. -/
theorem exists_appended (limit : Nat) (workers : Finset ι)
    (hlooked : ∀ who ∈ workers, s.pending who = [.append]) :
    ∃ steps s', Short limit steps ∧ run next steps s = some s' ∧
      (∀ who ∉ workers, s'.pending who = s.pending who) ∧
        s'.size 0 = s.size 0 + workers.card * limit := by
  induction workers using Finset.induction_on with
  | empty =>
      refine ⟨[], s, fun _ hmem => absurd hmem List.not_mem_nil, rfl, fun _ _ => rfl, ?_⟩
      rw [Finset.card_empty, Nat.zero_mul, Nat.add_zero]
  | insert who workers hnew ih =>
      obtain ⟨steps, s', hshort, hrun, hothers, hsize⟩ :=
        ih fun other hmem => hlooked other (Finset.mem_insert_of_mem hmem)
      have hwho : s'.pending who = [.append] :=
        (hothers who hnew).trans (hlooked who (Finset.mem_insert_self who workers))
      have hgrow : run next (steps ++ [.append who (List.replicate limit 10)]) s =
          run next [.append who (List.replicate limit 10)] s' := by
        rw [run_append, hrun]
        rfl
      refine ⟨_, _, hshort.join ?_, hgrow.trans (run_append_entry hwho _), ?_, ?_⟩
      · intro entry hmem
        rw [List.mem_singleton.mp hmem, List.length_replicate]
      · intro other hmem
        obtain ⟨hne, hother⟩ := not_or.mp (mt Finset.mem_insert.mpr hmem)
        exact (Function.update_of_ne hne _ _).trans (hothers other hother)
      · rw [size_append, hsize, List.length_replicate, Finset.card_insert_of_notMem hnew,
          Nat.succ_mul, Nat.add_assoc]

end Reached

/-- With entries of up to `limit` bytes the largest log file that the workers can leave, whatever
the order of their calls, exceeds the threshold by one byte less than an entry for each of them. -/
theorem greatest_log_size [Fintype ι] [Nonempty ι] {limit : Nat} (hlimit : 0 < limit) :
    IsGreatest {size | ∃ steps s, Short (ι := ι) limit steps ∧ run next steps .init = some s ∧
      ∃ age, s.size age = size} (maxLogBytes - 1 + Fintype.card ι * limit) := by
  constructor
  · obtain ⟨who⟩ := ‹Nonempty ι›
    obtain ⟨fill, s, hfill, hrunFill, hidle, hsize⟩ :=
      exists_filled who hlimit (show maxLogBytes - 1 < maxLogBytes by decide)
    obtain ⟨look, hlook, hrunLook⟩ :=
      exists_looked limit Finset.univ hidle (hsize ▸ by decide)
    obtain ⟨grow, s', hgrow, hrunGrow, -, hgrown⟩ := exists_appended limit
      (s := ⟨s.files, fun who => if who ∈ (Finset.univ : Finset ι) then [.append] else []⟩)
      Finset.univ fun who hmem => if_pos hmem
    refine ⟨fill ++ (look ++ grow), s', hfill.join (hlook.join hgrow), ?_, 0, ?_⟩
    · rw [run_append, hrunFill, Option.bind_eq_bind, Option.bind_some, run_append, hrunLook]
      exact hrunGrow
    · rw [hgrown, Finset.card_univ, ← hsize]
      rfl
  · rintro size ⟨steps, s, hshort, hrun, age, rfl⟩
    have hsizes := (bounded_of_run hshort hrun).sizes age
    have hpositive : 0 < maxLogBytes := by decide
    omega

/-- Two workers with entries of up to a hundred bytes leave a log that exceeds the threshold by up
to 199. -/
theorem greatest_log_size_pair :
    IsGreatest {size | ∃ steps s, Short (ι := Bool) 100 steps ∧ run next steps .init = some s ∧
      ∃ age, s.size age = size} (maxLogBytes - 1 + 2 * 100) :=
  greatest_log_size (by decide)

end Dvws.Rotation
