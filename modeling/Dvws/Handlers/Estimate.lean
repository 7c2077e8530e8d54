import Dvws.Effect.Traced
import Dvws.Handlers.StatusDecoder

/-!
# What the estimator looks at

`estimate_decoded_length` gets a pointer into the request and stops at the first NUL, LF or CR that
it comes to. Here its loop runs over memory and records every index that it looks at. It passes over
two bytes behind a `%` unseen, so a `%` among the last two bytes of the parameter takes it over the
end; on a complete parameter it stops at the end (`estimate_stays_within_iff`).
-/

namespace Dvws

open Effect

/-- Memory from the start of a NUL-terminated buffer on, with what stands behind it. -/
def bufferMemory (buffer : Bytes) (behind : Nat → UInt8) (i : Nat) : UInt8 :=
  (buffer ++ [0]).getD i (behind i)

/-- The loop of `estimate_decoded_length` from `i` on, with the indices that it looks at; `none`
when it is not done after so many turns. -/
def estimateLoop (memory : Nat → UInt8) : Nat → Nat → Nat → Traced Nat Empty (Option Nat)
  | 0, _, _ => pure none
  | turns + 1, i, n => do
      emit i
      if endsParameter (memory i) then pure (some n)
      else if memory i = 37 then estimateLoop memory turns (i + 3) (n + 1)
      else estimateLoop memory turns (i + 1) (n + 1)

/-- The loop looks at no index beyond the end of the parameter, however many turns it makes; and it
ends, with the estimate of the bytes before. -/
structure StaysWithin (memory : Nat → UInt8) (parameter : Bytes) : Prop where
  within : ∀ turns, ∀ i ∈ (estimateLoop memory turns 0 0 ()).events, i ≤ parameter.length
  ends : ∃ turns, (estimateLoop memory turns 0 0 ()).value =
    .ok (some (estimateDecodedLength parameter))

/-- From `i` on the memory holds a parameter and then its end. -/
structure HoldsAt (memory : Nat → UInt8) (i : Nat) (parameter : Bytes) : Prop where
  bytes : ∀ k c, parameter[k]? = some c → memory (i + k) = c
  stop : endsParameter (memory (i + parameter.length)) = true
  unended : Unended parameter

section

variable {memory : Nat → UInt8} {i : Nat}

/-- A parameter that memory holds at an index has its first byte there. -/
theorem HoldsAt.head {c : UInt8} {rest : Bytes} (h : HoldsAt memory i (c :: rest)) :
    memory i = c := h.bytes 0 c rfl

/-- What stands behind the first bytes of a parameter is held behind them. -/
theorem HoldsAt.drop {rest : Bytes} (front : Bytes) (h : HoldsAt memory i (front ++ rest)) :
    HoldsAt memory (i + front.length) rest := by
  refine ⟨fun k c hc => ?_, ?_, fun c hc => h.unended c (List.mem_append_right _ hc)⟩
  · rw [Nat.add_assoc]
    refine h.bytes _ c ?_
    rw [List.getElem?_append_right (Nat.le_add_right _ _), Nat.add_sub_cancel_left, hc]
  · have hstop := h.stop
    rwa [List.length_append, ← Nat.add_assoc] at hstop

/-- The memory of a buffer holds its parameter. -/
theorem holds_parameter_text (buffer : Bytes) (behind : Nat → UInt8) :
    HoldsAt (bufferMemory buffer behind) 0 (parameterText buffer) := by
  have hsplit : buffer ++ [0] =
      parameterText buffer ++ (buffer.dropWhile (fun c => !endsParameter c) ++ [0]) := by
    rw [← List.append_assoc, parameterText, List.takeWhile_append_dropWhile]
  refine ⟨fun k c hc => ?_, ?_, unended_parameter_text buffer⟩
  · have hlt : k < (parameterText buffer).length := (List.getElem?_eq_some_iff.mp hc).1
    rw [Nat.zero_add, bufferMemory, hsplit, List.getD_eq_getElem?_getD,
      List.getElem?_append_left hlt, hc, Option.getD_some]
  · rw [Nat.zero_add, bufferMemory, hsplit, List.getD_eq_getElem?_getD,
      List.getElem?_append_right (Nat.le_refl _), Nat.sub_self]
    cases hrest : buffer.dropWhile fun c => !endsParameter c with
    | nil => rfl
    | cons c rest =>
        have hne : buffer.dropWhile (fun c => !endsParameter c) ≠ [] := by
          rw [hrest]
          exact List.cons_ne_nil c rest
        simpa [hrest] using List.head_dropWhile_not (fun c => !endsParameter c) hne

/-- The loop stops where the parameter ends, after one look. -/
theorem estimate_loop_of_ends (h : endsParameter (memory i) = true) (turns n : Nat) :
    estimateLoop memory (turns + 1) i n = (do emit i; pure (some n)) := by
  rw [estimateLoop, if_pos h]

/-- At a `%` the loop passes over three bytes. -/
theorem estimate_loop_of_percent (h : memory i = 37) (turns n : Nat) :
    estimateLoop memory (turns + 1) i n =
      (do emit i; estimateLoop memory turns (i + 3) (n + 1)) := by
  have hends : ¬ endsParameter (memory i) = true := by rw [h]; decide
  rw [estimateLoop, if_neg hends, if_pos h]

/-- At a byte that neither ends the parameter nor is a `%`, the loop passes over that byte. -/
theorem estimate_loop_of_plain (hends : endsParameter (memory i) = false) (h : memory i ≠ 37)
    (turns n : Nat) : estimateLoop memory (turns + 1) i n =
      (do emit i; estimateLoop memory turns (i + 1) (n + 1)) := by
  rw [estimateLoop, if_neg (by simp [hends]), if_neg h]

/-- On a complete parameter the loop stays within, and ends when it may make enough turns. -/
theorem estimate_loop_of_complete {parameter : Bytes} (hcomplete : Complete parameter)
    (hholds : HoldsAt memory i parameter) (turns n : Nat) :
    ∃ result, Agrees (fun k => k ≤ i + parameter.length) (estimateLoop memory turns i n)
        (.ok result) ∧
      (parameter.length < turns → result = some (n + estimateDecodedLength parameter)) := by
  induction parameter, hcomplete using scan_induction generalizing i turns n with
  | nil _ =>
      cases turns with
      | zero => exact ⟨none, .pure none, fun h => absurd h (Nat.not_lt_zero _)⟩
      | succ turns =>
          have hstop : endsParameter (memory i) = true := hholds.stop
          rw [estimate_loop_of_ends hstop]
          exact ⟨some n, .bind (.emit (Nat.le_refl i)) (.pure _), fun _ => rfl⟩
  | plain c rest _ hc ih =>
      cases turns with
      | zero => exact ⟨none, .pure none, fun h => absurd h (Nat.not_lt_zero _)⟩
      | succ turns =>
          have hends : endsParameter c = false := (unended_cons_iff.mp hholds.unended).1
          have hhead := hholds.head
          have hrest : HoldsAt memory (i + 1) rest := HoldsAt.drop [c] hholds
          obtain ⟨result, hagrees, hresult⟩ := ih hrest turns (n + 1)
          rw [Nat.add_right_comm, Nat.add_assoc, ← List.length_cons] at hagrees
          rw [estimate_loop_of_plain (by rwa [hhead]) (by rwa [hhead]), estimate_plain hends hc]
          refine ⟨result, .bind (.emit (Nat.le_add_right _ _)) hagrees, fun hturns => ?_⟩
          rw [hresult (Nat.lt_of_succ_lt_succ hturns)]
          congr 1
          omega
  | percent x y tail _ ih =>
      cases turns with
      | zero => exact ⟨none, .pure none, fun h => absurd h (Nat.not_lt_zero _)⟩
      | succ turns =>
          have htail : HoldsAt memory (i + 3) tail := HoldsAt.drop [37, x, y] hholds
          obtain ⟨result, hagrees, hresult⟩ := ih htail turns (n + 1)
          rw [show i + 3 + tail.length = i + (37 :: x :: y :: tail).length by
            simp only [List.length_cons]; omega] at hagrees
          rw [estimate_loop_of_percent hholds.head, estimate_percent]
          refine ⟨result, .bind (.emit (Nat.le_add_right _ _)) hagrees, fun hturns => ?_⟩
          simp only [List.length_cons] at hturns
          rw [hresult (by omega)]
          congr 1
          omega

/-- In some number of turns the loop looks beyond this index. -/
def LooksBeyond (memory : Nat → UInt8) (i n last : Nat) : Prop :=
  ∃ turns, ∃ k ∈ (estimateLoop memory turns i n ()).events, last < k

/-- What the loop looks at later it looks at in the whole. -/
theorem mem_events_of_emit {k i : Nat} {x : Traced Nat Empty (Option Nat)}
    (h : k ∈ (x ()).events) : k ∈ ((do emit i; x : Traced Nat Empty (Option Nat)) ()).events :=
  List.mem_append_right [i] h

/-- A loop that has come beyond an index looks beyond it. -/
theorem looks_beyond_of_lt {n last : Nat} (h : last < i) : LooksBeyond memory i n last := by
  refine ⟨1, i, ?_, h⟩
  rw [estimateLoop]
  exact mem_events_bind (List.mem_singleton_self _) _

/-- If it looks beyond an index behind a `%`, it does so from the `%` on. -/
theorem LooksBeyond.percent {n last : Nat} (hlater : LooksBeyond memory (i + 3) (n + 1) last)
    (h : memory i = 37) : LooksBeyond memory i n last := by
  obtain ⟨turns, k, hk, hbeyond⟩ := hlater
  refine ⟨turns + 1, k, ?_, hbeyond⟩
  rw [estimate_loop_of_percent h]
  exact mem_events_of_emit hk

/-- A loop that looks beyond an index from the next byte does so from a byte that it passes over
alone. -/
theorem LooksBeyond.plain {n last : Nat} (hlater : LooksBeyond memory (i + 1) (n + 1) last)
    (hends : endsParameter (memory i) = false) (h : memory i ≠ 37) :
    LooksBeyond memory i n last := by
  obtain ⟨turns, k, hk, hbeyond⟩ := hlater
  refine ⟨turns + 1, k, ?_, hbeyond⟩
  rw [estimate_loop_of_plain hends h]
  exact mem_events_of_emit hk

/-- A parameter that is not complete takes the loop over its end. -/
theorem looks_beyond {parameter : Bytes} (hcomplete : ¬ Complete parameter)
    (hholds : HoldsAt memory i parameter) (n : Nat) :
    LooksBeyond memory i n (i + parameter.length) := by
  induction hlength : parameter.length using Nat.strong_induction_on
    generalizing parameter i n with
  | _ length ih =>
      subst hlength
      match parameter with
      | [] => exact absurd (fun _ h => nomatch h) hcomplete
      | c :: rest =>
          have hhead := hholds.head
          by_cases hc : c = 37
          · subst hc
            refine LooksBeyond.percent ?_ hhead
            match rest with
            | x :: y :: tail =>
                have htail : ¬ Complete tail := fun htail => hcomplete (htail.percent x y)
                have hheld : HoldsAt memory (i + 3) tail := HoldsAt.drop [37, x, y] hholds
                have hshorter : tail.length < (37 :: x :: y :: tail).length := by
                  simp only [List.length_cons]
                  omega
                have hbeyond := ih tail.length hshorter htail hheld (n + 1) rfl
                rwa [Nat.add_assoc, Nat.add_comm 3] at hbeyond
            -- with too few bytes behind it the `%` takes the loop over the end at once
            | [_] => exact looks_beyond_of_lt (Nat.lt_succ_self _)
            | [] => exact looks_beyond_of_lt (Nat.lt_succ_of_lt (Nat.lt_succ_self _))
          · have hrest : ¬ Complete rest := fun hrest => hcomplete (hrest.plain hc)
            have hheld : HoldsAt memory (i + 1) rest := HoldsAt.drop [c] hholds
            have hends : endsParameter c = false := (unended_cons_iff.mp hholds.unended).1
            have hbeyond := ih rest.length (Nat.lt_succ_self _) hrest hheld (n + 1) rfl
            rw [Nat.add_assoc, Nat.add_comm 1] at hbeyond
            exact hbeyond.plain (by rwa [hhead]) (by rwa [hhead])

/-- What is recorded does not change the value. -/
theorem value_of_emit (i : Nat) (x : Traced Nat Empty (Option Nat)) :
    ((do emit i; x : Traced Nat Empty (Option Nat)) ()).value = (x ()).value := rfl

/-- With zeros behind a text the loop ends with its estimate. -/
theorem estimate_loop_value {rest : Bytes} (hmemory : ∀ k, memory (i + k) = rest.getD k 0)
    {turns : Nat} (hturns : rest.length < turns) (skip n : Nat) :
    (estimateLoop memory turns (i + skip) n ()).value =
      .ok (some (n + estimateFrom skip rest)) := by
  induction rest generalizing i turns skip n with
  | nil =>
      obtain ⟨turns, rfl⟩ : ∃ more, turns = more + 1 := ⟨turns - 1, by simp at hturns; omega⟩
      have hzero : endsParameter (memory (i + skip)) = true := by
        rw [hmemory]
        rfl
      rw [estimate_loop_of_ends hzero, value_of_emit]
      rfl
  | cons c rest ih =>
      obtain ⟨turns, rfl⟩ : ∃ more, turns = more + 1 := ⟨turns - 1, by simp at hturns; omega⟩
      have hnext (k : Nat) : memory (i + 1 + k) = rest.getD k 0 := by
        rw [Nat.add_assoc, Nat.add_comm 1 k, hmemory]
        rfl
      have hroom : rest.length < turns := Nat.lt_of_succ_lt_succ hturns
      cases skip with
      | succ skip =>
          rw [← Nat.add_assoc, Nat.add_right_comm, estimateFrom]
          exact ih hnext (Nat.lt_succ_of_lt hroom) skip n
      | zero =>
          have hhead : memory i = c := hmemory 0
          show (estimateLoop memory (turns + 1) i n ()).value = _
          rw [estimateFrom]
          cases hends : endsParameter c with
          | true =>
              rw [estimate_loop_of_ends (by rwa [hhead])]
              rfl
          | false =>
              rw [if_neg (by decide)]
              by_cases hc : c = 37
              · rw [estimate_loop_of_percent (by rwa [hhead]), value_of_emit, if_pos hc,
                  ← Nat.add_assoc]
                exact ih hnext hroom 2 (n + 1)
              · rw [estimate_loop_of_plain (by rwa [hhead]) (by rwa [hhead]), value_of_emit,
                  if_neg hc, ← Nat.add_assoc]
                exact ih hnext hroom 0 (n + 1)

/-- Zeroed memory goes on with zeros behind the buffer. -/
theorem buffer_memory_zeroed (buffer : Bytes) (k : Nat) :
    bufferMemory buffer (fun _ => 0) k = buffer.getD k 0 := by
  unfold bufferMemory
  rw [List.getD_eq_getElem?_getD, List.getD_eq_getElem?_getD]
  rcases Nat.lt_or_ge k buffer.length with hinside | hbehind
  · rw [List.getElem?_append_left hinside]
  · rw [List.getElem?_append_right hbehind, List.getElem?_eq_none hbehind]
    cases k - buffer.length with
    | zero => rfl
    | succ k => rfl

/-- `estimateDecodedLength` is what the loop ends with on a buffer in zeroed memory. -/
theorem estimate_loop_eq (buffer : Bytes) :
    (estimateLoop (bufferMemory buffer fun _ => 0) (buffer.length + 1) 0 0 ()).value =
      .ok (some (estimateDecodedLength buffer)) := by
  have hmemory (k : Nat) : bufferMemory buffer (fun _ => 0) (0 + k) = buffer.getD k 0 := by
    rw [Nat.zero_add]
    exact buffer_memory_zeroed buffer k
  have hloop := estimate_loop_value hmemory (Nat.lt_succ_self _) 0 0
  rwa [Nat.zero_add (estimateFrom 0 buffer)] at hloop

end

/-- A parameter that the estimator stays within is complete. -/
theorem StaysWithin.complete {buffer : Bytes} {behind : Nat → UInt8}
    (h : StaysWithin (bufferMemory buffer behind) (parameterText buffer)) :
    Complete (parameterText buffer) := by
  by_contra hcomplete
  obtain ⟨turns, k, hk, hbeyond⟩ :=
    looks_beyond hcomplete (holds_parameter_text buffer behind) 0
  have hwithin := h.within turns k hk
  omega

/-- The estimator stays within its parameter exactly when every `%` that it comes to has two more
bytes of the parameter behind it. -/
theorem estimate_stays_within_iff (buffer : Bytes) (behind : Nat → UInt8) :
    StaysWithin (bufferMemory buffer behind) (parameterText buffer) ↔
      Complete (parameterText buffer) := by
  constructor
  · intro hstays
    exact hstays.complete
  · intro hcomplete
    have hloop := estimate_loop_of_complete hcomplete (holds_parameter_text buffer behind)
    refine ⟨fun turns k hk => ?_, (parameterText buffer).length + 1, ?_⟩
    · obtain ⟨result, hagrees, -⟩ := hloop turns 0
      have hbound := hagrees.sound k hk
      rwa [Nat.zero_add] at hbound
    · obtain ⟨result, hagrees, hresult⟩ := hloop ((parameterText buffer).length + 1) 0
      rw [hagrees.value, hresult (Nat.lt_succ_self _), Nat.zero_add]

/-- In a request whose version ends in a `%` the estimator passes the end of its parameter. -/
theorem estimate_passes_end :
    parameterText (lit "ok HTTP/1.%\r\n\r\n") = lit "ok HTTP/1.%" ∧
      ¬ StaysWithin (bufferMemory (lit "ok HTTP/1.%\r\n\r\n") fun _ => 0)
        (lit "ok HTTP/1.%") := by
  have htext : parameterText (lit "ok HTTP/1.%\r\n\r\n") = lit "ok HTTP/1.%" := by decide +kernel
  refine ⟨htext, fun hstays => ?_⟩
  rw [← htext] at hstays
  exact absurd hstays.complete (by decide +kernel)

end Dvws
