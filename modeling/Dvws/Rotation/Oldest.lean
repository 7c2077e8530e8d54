import Dvws.Rotation.Workers

/-!
# What rotation drops

`kept` is the text of all log files from the oldest to the log. A `remove` drops its head and an
append extends it. A `rename` leaves it as it is when there is no file of the next age, and drops
its head when nothing older is left (`Harmless`); any other `rename` loses entries from its
middle. As long as every step of the workers is harmless, whatever their order, what is kept is
the end of what was appended.
-/

namespace Dvws.Rotation

open Transition

variable {ι : Type*}

/-- The entries that are kept, from the oldest to the latest. -/
def State.kept (s : State ι) : List Bytes :=
  s.entries 3 ++ s.entries 2 ++ s.entries 1 ++ s.entries 0

/-- A `rename` that finds its file replaces no entries, or only the oldest ones left. -/
def State.HarmlessCall (s : State ι) : Call → Prop
  | .rename age => s.files age.val = none ∨ s.entries (age.val + 1) = [] ∨
      ∀ older, age.val + 1 < older → older ≤ rotationKeep → s.entries older = []
  | _ => True

/-- The step makes a harmless call. -/
def Harmless (s : State ι) : Label ι → Prop
  | .call who => ∀ call ∈ (s.pending who).head?, s.HarmlessCall call
  | _ => True

/-- A file that was removed reads as empty, and no other is touched. -/
theorem entries_remove (s : State ι) (pending : ι → List Call) (age : Nat) :
    (⟨s.effect .remove, pending⟩ : State ι).entries age =
      if age = rotationKeep then [] else s.entries age := by
  by_cases h : age = rotationKeep
  · simp [State.entries, State.effect, h]
  · simp [State.entries, State.effect, h]

/-- A renamed file is found under the next age only, and no other but those two is touched. -/
theorem entries_rename {s : State ι} {source : Fin rotationKeep} {entries : List Bytes}
    (h : s.files source.val = some entries) (pending : ι → List Call) (age : Nat) :
    (⟨s.effect (.rename source), pending⟩ : State ι).entries age =
      if age = source.val + 1 then s.entries source.val
      else if age = source.val then [] else s.entries age := by
  simp only [State.entries, State.effect, h]
  by_cases htarget : age = source.val + 1
  · simp [htarget]
  · by_cases hsource : age = source.val
    · simp [hsource]
    · simp [htarget, hsource]

/-- Harmless calls drop the oldest entries at most. -/
theorem kept_effect {s : State ι} {call : Call} (h : s.HarmlessCall call)
    (pending : ι → List Call) : (⟨s.effect call, pending⟩ : State ι).kept <:+ s.kept := by
  cases call with
  | stat => exact List.suffix_refl _
  | append => exact List.suffix_refl _
  | remove =>
      simp only [State.kept, entries_remove, rotationKeep, List.append_assoc]
      exact List.suffix_append _ _
  | rename age =>
      cases hsource : s.files age.val with
      | none => simp [State.effect, State.kept, State.entries, hsource]
      | some entries =>
          simp only [State.HarmlessCall, hsource, reduceCtorEq, false_or] at h
          simp only [State.kept, entries_rename hsource]
          match age with
          | ⟨0, _⟩ =>
              obtain hempty | holder := h
              · have h1 : s.entries 1 = [] := hempty
                simp [h1]
              · have h2 : s.entries 2 = [] := holder 2 (by simp) (by decide)
                have h3 : s.entries 3 = [] := holder 3 (by simp) (by decide)
                simp [h2, h3]
          | ⟨1, _⟩ =>
              obtain hempty | holder := h
              · have h2 : s.entries 2 = [] := hempty
                simp [h2]
              · have h3 : s.entries 3 = [] := holder 3 (by simp) (by decide)
                simp [h3]
          | ⟨2, _⟩ => simp

/-- A call that is not harmless takes entries out of the middle. -/
theorem kept_of_harmful {s : State ι} {call : Call} (h : ¬ s.HarmlessCall call)
    (pending : ι → List Call) : ∃ oldest lost latest, s.kept = oldest ++ lost ++ latest ∧
      (⟨s.effect call, pending⟩ : State ι).kept = oldest ++ latest ∧ oldest ≠ [] ∧ lost ≠ [] := by
  cases call with
  | stat => exact absurd trivial h
  | append => exact absurd trivial h
  | remove => exact absurd trivial h
  | rename age =>
      simp only [State.HarmlessCall, not_or, not_forall] at h
      obtain ⟨hsource, hlost, older, hage, hkeep, holder⟩ := h
      obtain ⟨entries, hsource⟩ := Option.ne_none_iff_exists'.mp hsource
      simp only [State.kept, entries_rename hsource]
      unfold rotationKeep at hkeep
      match age with
      | ⟨0, _⟩ =>
          refine ⟨s.entries 3 ++ s.entries 2, s.entries 1, s.entries 0, rfl, by simp, ?_, hlost⟩
          -- what is older is one of the two files before the lost one
          obtain rfl | rfl : older = 2 ∨ older = 3 := by
            simp only [Nat.zero_add] at hage
            omega
          · simp [holder]
          · simp [holder]
      | ⟨1, _⟩ =>
          obtain rfl : older = 3 := by
            simp only [Nat.reduceAdd] at hage
            omega
          exact ⟨s.entries 3, s.entries 2, s.entries 1 ++ s.entries 0, by simp, by simp, holder,
            hlost⟩
      | ⟨2, _⟩ =>
          simp only [Nat.reduceAdd] at hage
          omega

/-- A worker's step is harmless when the first of its calls is. -/
theorem harmless_of_call {s : State ι} {who : ι} {call : Call} {rest : List Call}
    (hpending : s.pending who = call :: rest) (h : s.HarmlessCall call) :
    Harmless s (.call who) := by
  intro other hother
  rw [hpending, List.head?_cons, Option.mem_some_iff] at hother
  exact hother ▸ h

/-- What is kept depends on the files alone. -/
theorem kept_congr {s s' : State ι} (h : s'.files = s.files) : s'.kept = s.kept := by
  simp only [State.kept, State.entries, h]

/-- An append puts its entry at the end. -/
theorem kept_append {s s' : State ι} {entry : Bytes}
    (h : s'.files = Function.update s.files 0 (some (s.entries 0 ++ [entry]))) :
    s'.kept = s.kept ++ [entry] := by
  simp [State.kept, State.entries, h]

variable [DecidableEq ι]

/-- A harmless step extends what was appended and drops the oldest entries at most. -/
theorem kept_step {s s' : State ι} {l : Label ι} (hnext : next s l = some s')
    (h : Harmless s l) : s'.kept <:+ s.kept ++ appended [l] := by
  cases l with
  | begin who =>
      rw [kept_congr (begin_step hnext), appended, List.flatMap_singleton, List.append_nil]
  | call who =>
      obtain ⟨call, rest, hcall, rfl⟩ := call_step hnext
      have hharmless : s.HarmlessCall call := h call (by simp [hcall])
      simpa [appended] using kept_effect hharmless _
  | append who entry =>
      rw [kept_append (append_step hnext)]
      exact List.suffix_refl _

/-- A worker takes up a request, rotates the log and appends its entry, with no other in between. -/
def rotation (who : ι) (entry : Bytes) : List (Label ι) :=
  .begin who :: .call who :: List.replicate rotationCalls.length (.call who) ++
    [.append who entry]

/-- The files after it, but for the new log: each has the next age. -/
def rotated (files : Nat → Option (List Bytes)) (age : Nat) : Option (List Bytes) :=
  if age = 0 then none else if age ≤ rotationKeep then files (age - 1) else files age

/-- A worker makes its next call of a rotation. -/
theorem next_call {call : Call} (hcall : call ≠ .stat) (happend : call ≠ .append)
    (files : Nat → Option (List Bytes)) (pending : ι → List Call) (who : ι) (rest : List Call) :
    next ⟨files, Function.update pending who (call :: rest)⟩ (.call who) =
      some ⟨(State.mk files pending).effect call, Function.update pending who rest⟩ := by
  cases call with
  | stat => exact absurd rfl hcall
  | append => exact absurd rfl happend
  | remove => simp [next, State.remaining, State.effect]
  | rename age => simp [next, State.remaining, State.effect]

omit [DecidableEq ι] in
/-- A file is renamed to the next age where there is none. -/
theorem effect_rename_of_none {files : Nat → Option (List Bytes)} {age : Fin rotationKeep}
    (h : files (age.val + 1) = none) (pending : ι → List Call) :
    (State.mk files pending).effect (.rename age) =
      Function.update (Function.update files (age.val + 1) (files age.val)) age.val none := by
  unfold State.effect
  cases hsource : files age.val with
  | none =>
      simp only [hsource]
      have hnext : Function.update files (age.val + 1) none = files :=
        Function.update_eq_self_iff.mpr h.symm
      rw [hnext, Function.update_eq_self_iff.mpr hsource.symm]
  | some entries =>
      simp only [hsource]
      exact Function.update_comm (Nat.ne_of_lt (Nat.lt_succ_self _)) _ _ _

/-- A `rename` is harmless where there is no file of the next age. -/
theorem leads_rename {files : Nat → Option (List Bytes)} {age : Fin rotationKeep}
    (h : files (age.val + 1) = none) {pending : ι → List Call} {who : ι} {rest : List Call}
    {steps : List (Label ι)} {finish : State ι}
    (hrest : Leads next Harmless
      ⟨Function.update (Function.update files (age.val + 1) (files age.val)) age.val none,
        Function.update pending who rest⟩ steps finish) :
    Leads next Harmless ⟨files, Function.update pending who (.rename age :: rest)⟩
      (.call who :: steps) finish := by
  refine leads_cons (next_call Call.noConfusion Call.noConfusion ..) ?_ ?_
  · exact harmless_of_call (Function.update_self ..) (.inr (.inl (congrArg (Option.getD · []) h)))
  · rw [effect_rename_of_none h]
    exact hrest

omit [DecidableEq ι] in
/-- A log of one long entry has grown. -/
theorem has_grown_of_log {s : State ι} (entry : Bytes) (hlog : s.files 0 = some [entry])
    (h : maxLogBytes ≤ entry.length) : s.hasGrown = true := by
  simp [State.hasGrown, hlog, h]

/-- With a log that has grown `stat` leads to a rotation. -/
theorem call_stat_of_grown {s : State ι} {who : ι} {rest : List Call}
    (h : s.pending who = .stat :: rest) (hgrown : s.hasGrown = true) : next s (.call who) =
      some ⟨s.files, Function.update s.pending who (rotationCalls ++ rest)⟩ := by
  simp [next, h, State.remaining, hgrown, State.effect]

/-- An append to a log that is not there makes it a file of one entry, and its worker is idle. -/
theorem append_without_log {files : Nat → Option (List Bytes)} (hlog : files 0 = none)
    {pending : ι → List Call} {who : ι} (hidle : pending who = []) (entry : Bytes) :
    next ⟨files, Function.update pending who [.append]⟩ (.append who entry) =
      some ⟨Function.update files 0 (some [entry]), pending⟩ := by
  have hpending : Function.update pending who [] = pending :=
    Function.update_eq_self_iff.mpr hidle.symm
  simp only [next, Function.update_self, Function.update_idem, State.entries, hlog]
  rw [hpending]
  rfl

/-- A rotation with no other call in between is harmless: every file gets the next age, and the new
log has the entry alone. -/
theorem rotation_leads {s : State ι} {who : ι} (hidle : s.pending who = [])
    (hgrown : s.hasGrown = true) (entry : Bytes) :
    Leads next Harmless s (rotation who entry)
      ⟨Function.update (rotated s.files) 0 (some [entry]), s.pending⟩ := by
  obtain ⟨files, pending⟩ := s
  have hidle : pending who = [] := hidle
  have hstart : next ⟨files, pending⟩ (.begin who) =
      some ⟨files, Function.update pending who [.stat, .append]⟩ := by
    simp only [next, hidle]
  have hlook : next ⟨files, Function.update pending who [.stat, .append]⟩ (.call who) =
      some ⟨files, Function.update pending who (rotationCalls ++ [.append])⟩ := by
    have hagain : (State.mk files (Function.update pending who [.stat, .append])).hasGrown =
      true := hgrown
    rw [call_stat_of_grown (Function.update_self ..) hagain, Function.update_idem]
  have hlast {left : Nat → Option (List Bytes)} (h : ∀ age, left age = rotated files age) :
      next ⟨left, Function.update pending who [.append]⟩ (.append who entry) =
        some ⟨Function.update (rotated files) 0 (some [entry]), pending⟩ := by
    obtain rfl := funext h
    exact append_without_log rfl hidle entry
  refine leads_cons hstart trivial ?_
  refine leads_cons hlook (harmless_of_call (Function.update_self ..) trivial) ?_
  -- the oldest is removed, and each of the others finds nothing under its new name
  refine leads_cons (next_call Call.noConfusion Call.noConfusion ..)
    (harmless_of_call (Function.update_self ..) trivial) ?_
  show Leads next Harmless ⟨Function.update files (2 + 1) none, Function.update pending who
    [.rename ⟨2, by decide⟩, .rename ⟨1, by decide⟩, .rename ⟨0, by decide⟩, .append]⟩
    [.call who, .call who, .call who, .append who entry] _
  apply leads_rename
  · exact Function.update_self ..
  apply leads_rename
  · exact Function.update_self ..
  apply leads_rename
  · exact Function.update_self ..
  refine leads_cons (hlast ?_) trivial leads_nil
  intro age
  rcases age with _ | _ | _ | _ | age
  · rfl
  · rfl
  · rfl
  · rfl
  · simp [Function.update, rotated, rotationKeep]

/-- Log files by age, from the log on. -/
def aged (files : List (List Bytes)) (age : Nat) : Option (List Bytes) := files[age]?

/-- A rotation of files without gaps leaves files without gaps. -/
theorem rotated_aged {files : List (List Bytes)} (h : files.length ≤ rotationKeep + 1)
    (entry : Bytes) : Function.update (rotated (aged files)) 0 (some [entry]) =
      aged ([entry] :: files.take rotationKeep) := by
  funext age
  cases age with
  | zero => rfl
  | succ age =>
      rw [Function.update_of_ne (Nat.succ_ne_zero age), rotated, if_neg (Nat.succ_ne_zero age)]
      show (if age < rotationKeep then files[age]? else files[age + 1]?) =
        (files.take rotationKeep)[age]?
      rw [List.getElem?_take]
      split
      · rfl
      · exact List.getElem?_eq_none (by omega)

/-- A log with one long entry is rotated. -/
theorem rotation_leads_aged {log : Bytes} {files : List (List Bytes)} {pending : ι → List Call}
    {who : ι} (hidle : pending who = []) (hgrown : maxLogBytes ≤ log.length)
    (h : files.length ≤ rotationKeep) (entry : Bytes) :
    Leads next Harmless ⟨aged ([log] :: files), pending⟩ (rotation who entry)
      ⟨aged ([entry] :: ([log] :: files).take rotationKeep), pending⟩ := by
  have hlength : ([log] :: files).length ≤ rotationKeep + 1 := Nat.succ_le_succ h
  rw [← rotated_aged hlength]
  exact rotation_leads hidle (has_grown_of_log log rfl hgrown) entry

/-- Whatever the order of the workers' calls, as long as all are harmless the log files hold the
end of what was appended. -/
theorem rotation_drops_oldest {steps : List (Label ι)} {s : State ι}
    (hrun : run next steps .init = some s) (h : Meets next Harmless .init steps) :
    s.kept <:+ appended steps := by
  refine run_induction_of_meets (P := fun steps s => s.kept <:+ appended steps) ?_ ?_ hrun h
  · simp [State.kept, State.entries, State.init]
  · intro ls s l s' hkept hharmless hnext
    have hsplit : appended (ls ++ [l]) = appended ls ++ appended [l] := by simp [appended]
    obtain ⟨dropped, hdropped⟩ := hkept
    refine (kept_step hnext hharmless).trans ⟨dropped, ?_⟩
    rw [hsplit, ← List.append_assoc, hdropped]

/-- An entry of a mebibyte. -/
def longEntry (c : UInt8) : Bytes := List.replicate maxLogBytes c

/-- One long entry makes the log grow to the limit. -/
theorem long_entry_length (c : UInt8) : maxLogBytes ≤ (longEntry c).length := by
  simp [longEntry]

/-- Two workers rotate four times, so that there is a file to remove in the end; while one rotates
for the last time, the other waits with a request. -/
def turningSteps (first second third fourth : Bytes) : List (Label Bool) :=
  [.begin false, .call false, .append false first] ++ (rotation true second ++
    (rotation false third ++ (rotation true fourth ++ (.begin true :: (rotation false [53] ++
      [.call true, .append true [54]])))))

/-- No call of theirs is harmful, and the first entry is dropped. -/
theorem turning_steps_lead {first second third fourth : Bytes}
    (hfirst : maxLogBytes ≤ first.length) (hsecond : maxLogBytes ≤ second.length)
    (hthird : maxLogBytes ≤ third.length) (hfourth : maxLogBytes ≤ fourth.length) :
    ∃ s, Leads next Harmless .init (turningSteps first second third fourth) s ∧
      s.kept = [second, third, fourth, [53], [54]] := by
  have hbegin : Leads next Harmless (State.init : State Bool)
      [.begin false, .call false, .append false first] ⟨aged [[first]], fun _ => []⟩ := by
    refine leads_cons rfl trivial (leads_cons rfl (harmless_of_call rfl trivial)
      (leads_cons ?_ trivial leads_nil))
    refine congrArg some (congrArg₂ State.mk ?_ ?_)
    · funext age
      cases age <;> rfl
    · funext who
      cases who <;> rfl
  -- the last log is small when the other looks at it
  have hends : Leads next Harmless
      (State.mk (aged [[[53]], [fourth], [third], [second]])
        (Function.update (fun _ => []) true [.stat, .append]))
      [.call true, .append true [54]] _ :=
    leads_cons rfl (harmless_of_call rfl trivial) (leads_cons rfl trivial leads_nil)
  have hwaits : Leads next Harmless
      (State.mk (aged [[fourth], [third], [second], [first]]) fun _ => [])
      (.begin true :: (rotation false [53] ++ [.call true, .append true [54]])) _ :=
    leads_cons rfl trivial <|
      .append (rotation_leads_aged rfl hfourth (by simp [rotationKeep]) [53]) hends
  have hfull : Leads next Harmless (State.mk (aged [[third], [second], [first]]) fun _ => [])
      (rotation true fourth ++ _) _ :=
    .append (rotation_leads_aged rfl hthird (by simp [rotationKeep]) fourth) hwaits
  have hmore : Leads next Harmless (State.mk (aged [[second], [first]]) fun _ => [])
      (rotation false third ++ _) _ :=
    .append (rotation_leads_aged rfl hsecond (by simp [rotationKeep]) third) hfull
  have hone : Leads next Harmless (State.mk (aged [[first]]) fun _ => [])
      (rotation true second ++ _) _ :=
    .append (rotation_leads_aged rfl hfirst (by simp [rotationKeep]) second) hmore
  exact ⟨_, hbegin.append hone, rfl⟩

/-- The rotation drops the oldest entry, and the others are kept in the order of the appends. -/
theorem rotation_drops_oldest_turning :
    ∃ s, run next (turningSteps (longEntry 49) (longEntry 50) (longEntry 51) (longEntry 52)) .init =
        some s ∧
      s.kept = [longEntry 50, longEntry 51, longEntry 52, [53], [54]] ∧
      s.kept <:+
        appended (turningSteps (longEntry 49) (longEntry 50) (longEntry 51) (longEntry 52)) := by
  obtain ⟨s, hleads, hkept⟩ := turning_steps_lead (long_entry_length 49) (long_entry_length 50)
    (long_entry_length 51) (long_entry_length 52)
  exact ⟨s, hleads.run_eq, hkept, rotation_drops_oldest hleads.run_eq hleads.meets⟩

/-! ## What harm does -/

/-- A part of a list without duplicates cannot be taken out of its middle to get an end of it. -/
theorem not_suffix_of_taken_out {oldest lost latest history : List Bytes}
    (hnodup : history.Nodup) (h : oldest ++ lost ++ latest <:+ history) (holdest : oldest ≠ [])
    (hlost : lost ≠ []) : ¬ oldest ++ latest <:+ history := by
  intro hsuffix
  have hlength : (oldest ++ latest).length ≤ (oldest ++ lost ++ latest).length := by simp
  obtain ⟨dropped, hdropped⟩ := List.suffix_of_suffix_length_le hsuffix h hlength
  rw [← List.append_assoc, List.append_cancel_right_eq] at hdropped
  -- the last entry before the gap is also the last one in it
  have hsame : oldest.getLast holdest = lost.getLast hlost := by
    have hlast := congrArg List.getLast? hdropped
    rw [List.getLast?_append_of_ne_nil _ holdest, List.getLast?_append_of_ne_nil _ hlost,
      List.getLast?_eq_some_getLast holdest, List.getLast?_eq_some_getLast hlost] at hlast
    exact Option.some.inj hlast
  have hdisjoint := (hnodup.sublist h.sublist).sublist (List.sublist_append_left _ latest)
  refine (List.nodup_append.mp hdisjoint).2.2 _ (List.getLast_mem holdest) _
    (List.getLast_mem hlost) hsame

/-- When the entries are told apart, a step that is not harmless loses one that is not
the oldest. -/
theorem lost_of_harmful {s s' : State ι} {l : Label ι} {history : List Bytes}
    (hnodup : history.Nodup) (hkept : s.kept <:+ history) (hnext : next s l = some s')
    (h : ¬ Harmless s l) : ¬ s'.kept <:+ history := by
  cases l with
  | begin who => exact absurd trivial h
  | append who entry => exact absurd trivial h
  | call who =>
      obtain ⟨call, rest, hcall, rfl⟩ := call_step hnext
      have hharm : ¬ s.HarmlessCall call := fun hharmless => h (harmless_of_call hcall hharmless)
      obtain ⟨oldest, lost, latest, hsplit, hleft, holdest, hlost⟩ := kept_of_harmful hharm
        (Function.update s.pending who (s.remaining rest call))
      rw [hleft]
      exact not_suffix_of_taken_out hnodup (hsplit ▸ hkept) holdest hlost

/-- A run goes on from the state after its first step. -/
theorem run_cons_of_next {s s' : State ι} {l : Label ι} (h : next s l = some s')
    (steps : List (Label ι)) : run next (l :: steps) s = run next steps s' := by
  simp [run, h]

/-- Two workers both find that the log has grown. One has renamed all but the log when the other
does the same, and renames the log; then it appends, and the other renames the new log over the
old one. -/
def lossySteps (first second third : Bytes) : List (Label Bool) :=
  [.begin false, .call false, .append false first, .begin false, .call false,
    .call false, .call false, .call false, .call false, .append false second,
    .begin false, .call false, .begin true, .call true, .call false, .call false, .call false,
    .call true, .call true, .call true, .call false, .append false third, .call true]

/-- The entry of the old log is lost, and an older one is kept. -/
theorem lossy_run {first second : Bytes} (hfirst : maxLogBytes ≤ first.length)
    (hsecond : maxLogBytes ≤ second.length) (third : Bytes) :
    ∃ s, run next (lossySteps first second third) .init = some s ∧ s.kept = [first, third] := by
  unfold lossySteps
  iterate 4 rw [run_cons_of_next rfl]
  rw [run_cons_of_next (call_stat_of_grown rfl (has_grown_of_log first rfl hfirst))]
  iterate 6 rw [run_cons_of_next rfl]
  rw [run_cons_of_next (call_stat_of_grown rfl (has_grown_of_log second rfl hsecond)),
    run_cons_of_next rfl,
    run_cons_of_next (call_stat_of_grown rfl (has_grown_of_log second rfl hsecond))]
  iterate 9 rw [run_cons_of_next rfl]
  exact ⟨_, rfl, rfl⟩

/-- What `lossySteps` keep is not the end of what was appended. -/
theorem kept_not_suffix_of_lossy_run :
    ∃ s, run next (lossySteps (longEntry 49) (longEntry 50) [51]) .init = some s ∧
      ¬ s.kept <:+ appended (lossySteps (longEntry 49) (longEntry 50) [51]) := by
  obtain ⟨s, hrun, hkept⟩ := lossy_run (long_entry_length 49) (long_entry_length 50) [51]
  refine ⟨s, hrun, ?_⟩
  have happended : appended (lossySteps (longEntry 49) (longEntry 50) [51]) =
      [longEntry 49] ++ [longEntry 50] ++ [[51]] := rfl
  have hnodup : [longEntry 49, longEntry 50, [51]].Nodup := by
    have hlong (c : UInt8) : longEntry c ≠ [51] := by
      intro hsame
      have hlength := congrArg List.length hsame
      rw [longEntry, List.length_replicate] at hlength
      exact absurd hlength (by decide)
    have hne : longEntry 49 ≠ longEntry 50 := by
      unfold longEntry
      rw [Ne, List.replicate_right_inj (by decide)]
      decide
    refine List.nodup_cons.mpr ⟨?_, List.nodup_cons.mpr ⟨?_, List.nodup_singleton _⟩⟩
    · simp only [List.mem_cons, List.not_mem_nil, or_false, not_or]
      exact ⟨hne, hlong 49⟩
    · rw [List.mem_singleton]
      exact hlong 50
  have hkept : s.kept = [longEntry 49] ++ [[51]] := hkept
  rw [happended, hkept]
  exact not_suffix_of_taken_out hnodup (List.suffix_refl _) (List.cons_ne_nil _ _)
    (List.cons_ne_nil _ _)

end Dvws.Rotation
