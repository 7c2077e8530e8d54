import Dvws.Handlers.Admin

/-!
# The size of a decoded status

`system_status` sizes its buffer with `estimate_decoded_length` and fills it with
`decode_status_param`. The estimator takes every `%` it comes to for an escape and passes over the
two bytes behind it; the decoder copies a `%` that starts no valid escape and goes on right behind
it. The two fall out of step there, and are in step again after an escape that straddles the end
of the estimator's three bytes, so what the estimate lacks can be counted.
-/

namespace Dvws

/-- What both loops read of a buffer: everything before the first NUL, LF or CR. -/
def parameterText (buffer : Bytes) : Bytes := buffer.takeWhile fun c => !endsParameter c

/-- The texts behind the `%`s that the estimator counts, with `skip` bytes to pass over unseen. -/
def countedFrom : Nat → Bytes → List Bytes
  | _, [] => []
  | skip + 1, _ :: rest => countedFrom skip rest
  | 0, c :: rest => if c = 37 then rest :: countedFrom 2 rest else countedFrom 0 rest

/-- The texts behind the `%`s that the estimator counts. -/
def countedEscapes (s : Bytes) : List Bytes := countedFrom 0 s

/-- The text starts with two hexadecimal digits. -/
def startsWithDigits : Bytes → Bool
  | x :: y :: _ => (hexVal x).isSome && (hexVal y).isSome
  | _ => false

/-- The text starts with a valid escape. -/
def startsWithEscape : Bytes → Bool
  | [] => false
  | c :: rest => c = 37 && startsWithDigits rest

/-- Behind a `%` the text makes no valid escape of it, and none starts at its first or its second
byte. -/
def isStray (rest : Bytes) : Bool :=
  !startsWithDigits rest && !startsWithEscape rest && !startsWithEscape (rest.drop 1)

/-- Every byte goes on with the parameter. -/
def Unended (s : Bytes) : Prop := ∀ c ∈ s, endsParameter c = false

/-- What is read of a buffer is unended. -/
theorem unended_parameter_text (buffer : Bytes) : Unended (parameterText buffer) := fun c hc => by
  simpa using List.mem_takeWhile_imp hc

/-- The first byte of an unended text goes on, and so does the rest. -/
theorem unended_cons_iff {c : UInt8} {s : Bytes} :
    Unended (c :: s) ↔ endsParameter c = false ∧ Unended s := by
  simp [Unended]

/-- A hexadecimal digit does not end a parameter. -/
theorem goes_on_of_digit {c : UInt8} (h : (hexVal c).isSome = true) : endsParameter c = false := by
  by_contra hends
  simp only [endsParameter, Bool.or_eq_true, decide_eq_true_eq, Bool.not_eq_false] at hends
  obtain (rfl | rfl) | rfl := hends <;> exact absurd h (by decide)

/-- A byte that ends a parameter is no digit. -/
theorem not_digit_of_ends {c : UInt8} (h : endsParameter c = true) :
    (hexVal c).isSome = false := by
  by_contra hdigit
  exact absurd ((goes_on_of_digit (Bool.not_eq_false _ ▸ hdigit)).symm.trans h) (by decide)

/-- A hexadecimal digit is no `%`. -/
theorem not_percent_of_digit {c : UInt8} (h : (hexVal c).isSome = true) : c ≠ 37 := by
  rintro rfl
  exact absurd h (by decide)

/-- Reading the parameter stops at its end. -/
theorem parameter_text_of_ends {c : UInt8} (h : endsParameter c = true) (rest : Bytes) :
    parameterText (c :: rest) = [] := by
  simp [parameterText, h]

/-- Before its end every byte is read. -/
theorem parameter_text_of_goes_on {c : UInt8} (h : endsParameter c = false) (rest : Bytes) :
    parameterText (c :: rest) = c :: parameterText rest := by
  simp [parameterText, h]

/-- Digits at the head of a buffer are digits of the parameter. -/
theorem starts_with_digits_parameter_text (buffer : Bytes) :
    startsWithDigits (parameterText buffer) = startsWithDigits buffer := by
  match buffer with
  | [] => rfl
  | [x] =>
      cases hx : endsParameter x with
      | true => rw [parameter_text_of_ends hx]; rfl
      | false => rw [parameter_text_of_goes_on hx]; rfl
  | x :: y :: tail =>
      cases hx : endsParameter x with
      | true => simp [parameter_text_of_ends hx, startsWithDigits, not_digit_of_ends hx]
      | false =>
          rw [parameter_text_of_goes_on hx]
          cases hy : endsParameter y with
          | true => simp [parameter_text_of_ends hy, startsWithDigits, not_digit_of_ends hy]
          | false => simp [parameter_text_of_goes_on hy, startsWithDigits]

/-! ## The decoder -/

/-- At a valid escape the decoder writes one byte and passes over three. -/
theorem decode_escape {x y : UInt8} {hi lo : Nat} (hx : hexVal x = some hi)
    (hy : hexVal y = some lo) (tail : Bytes) :
    decodeStatusParam (37 :: x :: y :: tail) =
      UInt8.ofNat (16 * hi + lo) :: decodeStatusParam tail := by
  have hpercent : endsParameter 37 = false := by decide
  rw [decodeStatusParam.eq_def]
  simp [hpercent, hx, hy]

/-- Elsewhere it copies one byte and passes over it. -/
theorem decode_copy {c : UInt8} {rest : Bytes} (hends : endsParameter c = false)
    (h : startsWithEscape (c :: rest) = false) :
    decodeStatusParam (c :: rest) = c :: decodeStatusParam rest := by
  rw [decodeStatusParam.eq_def]
  simp only [hends, Bool.false_eq_true, if_false]
  split
  · next hc =>
    have hdigits : startsWithDigits rest = false := by simpa [startsWithEscape, hc] using h
    split
    · next x y tail =>
      split
      · next hi lo hhi hlo => simp [startsWithDigits, hhi, hlo] at hdigits
      · rfl
    · rfl
  · rfl

/-- A text that starts with an escape has two hexadecimal digits behind its `%`. -/
theorem exists_of_starts_with_escape {s : Bytes} (h : startsWithEscape s = true) :
    ∃ x y hi lo tail, s = 37 :: x :: y :: tail ∧ hexVal x = some hi ∧ hexVal y = some lo := by
  match s with
  | c :: x :: y :: tail =>
      simp only [startsWithEscape, startsWithDigits, Bool.and_eq_true, decide_eq_true_eq] at h
      obtain ⟨rfl, hx, hy⟩ := h
      obtain ⟨hi, hhi⟩ := Option.isSome_iff_exists.mp hx
      obtain ⟨lo, hlo⟩ := Option.isSome_iff_exists.mp hy
      exact ⟨x, y, hi, lo, tail, rfl, hhi, hlo⟩
  | [_, _] => simp [startsWithEscape, startsWithDigits] at h
  | [_] => simp [startsWithEscape, startsWithDigits] at h

/-- The decoder reads nothing behind the end of the parameter. -/
theorem decode_parameter_text (buffer : Bytes) :
    decodeStatusParam (parameterText buffer) = decodeStatusParam buffer := by
  -- an escape is passed over as a whole, so the induction is on the length
  induction hlen : buffer.length using Nat.strong_induction_on generalizing buffer with
  | _ n ih =>
    subst hlen
    cases buffer with
    | nil => rfl
    | cons c rest =>
        cases hends : endsParameter c with
        | true =>
            rw [parameter_text_of_ends hends, decode_of_ends hends, decodeStatusParam]
        | false =>
            rw [parameter_text_of_goes_on hends]
            cases hescape : startsWithEscape (c :: rest) with
            | true =>
                obtain ⟨x, y, hi, lo, tail, hsplit, hhi, hlo⟩ :=
                  exists_of_starts_with_escape hescape
                obtain ⟨rfl, rfl⟩ := List.cons.inj hsplit
                have hx := goes_on_of_digit (Option.isSome_of_eq_some hhi)
                have hy := goes_on_of_digit (Option.isSome_of_eq_some hlo)
                have hshorter : tail.length < (37 :: x :: y :: tail).length := by
                  simp only [List.length_cons]
                  omega
                rw [parameter_text_of_goes_on hx, parameter_text_of_goes_on hy,
                  decode_escape hhi hlo, decode_escape hhi hlo, ih tail.length hshorter tail rfl]
            | false =>
                have hsame : startsWithEscape (c :: parameterText rest) = false := by
                  rw [← hescape]
                  simp only [startsWithEscape, starts_with_digits_parameter_text]
                rw [decode_copy hends hsame, decode_copy hends hescape,
                  ih rest.length (by simp) rest rfl]

/-! ## The estimator -/

/-- The estimator passes over a byte that is no `%`. -/
theorem estimate_plain {c : UInt8} (hends : endsParameter c = false) (hc : c ≠ 37) (rest : Bytes) :
    estimateDecodedLength (c :: rest) = estimateDecodedLength rest + 1 := by
  simp [estimateDecodedLength, estimateFrom, hends, hc, Nat.add_comm]

/-- Such a byte is not counted as an escape. -/
theorem counted_plain {c : UInt8} (hc : c ≠ 37) (rest : Bytes) :
    countedEscapes (c :: rest) = countedEscapes rest := by
  simp [countedEscapes, countedFrom, hc]

/-- At a `%` the estimator passes over three bytes. -/
theorem estimate_percent (x y : UInt8) (rest : Bytes) :
    estimateDecodedLength (37 :: x :: y :: rest) = estimateDecodedLength rest + 1 := by
  have hpercent : endsParameter 37 = false := by decide
  simp [estimateDecodedLength, estimateFrom, hpercent, Nat.add_comm]

/-- At a `%` the estimator counts an escape. -/
theorem counted_percent (x y : UInt8) (rest : Bytes) :
    countedEscapes (37 :: x :: y :: rest) = (x :: y :: rest) :: countedEscapes rest := by
  simp [countedEscapes, countedFrom]

/-- Every `%` that is counted has two more bytes behind it. -/
def Complete (s : Bytes) : Prop := ∀ rest ∈ countedEscapes s, 2 ≤ rest.length

instance (s : Bytes) : Decidable (Complete s) := inferInstanceAs (Decidable (∀ _ ∈ _, _))

/-- A complete text that starts with a `%` goes on with two bytes. -/
theorem Complete.exists_of_percent {rest : Bytes} (h : Complete (37 :: rest)) :
    ∃ x y tail, rest = x :: y :: tail := by
  have hlen : 2 ≤ rest.length := h rest (by simp [countedEscapes, countedFrom])
  match rest with
  | x :: y :: tail => exact ⟨x, y, tail, rfl⟩

/-- What stands behind the three bytes of a counted `%` of a complete text is complete. -/
theorem Complete.of_percent {x y : UInt8} {tail : Bytes} (h : Complete (37 :: x :: y :: tail)) :
    Complete tail := by
  intro rest hmem
  refine h rest ?_
  rw [counted_percent]
  exact List.mem_cons_of_mem _ hmem

/-- What stands behind a byte of a complete text that is no `%` is complete. -/
theorem Complete.of_plain {c : UInt8} {rest : Bytes} (hc : c ≠ 37) (h : Complete (c :: rest)) :
    Complete rest := by
  unfold Complete at h
  rwa [counted_plain hc] at h

/-- A counted `%` with two bytes behind it leaves a complete text complete. -/
theorem Complete.percent {tail : Bytes} (h : Complete tail) (x y : UInt8) :
    Complete (37 :: x :: y :: tail) := by
  intro rest hmem
  rw [counted_percent] at hmem
  rcases List.mem_cons.mp hmem with rfl | hlater
  · simp
  · exact h rest hlater

/-- A byte that is no `%` in front of a complete text leaves it complete. -/
theorem Complete.plain {c : UInt8} {rest : Bytes} (h : Complete rest) (hc : c ≠ 37) :
    Complete (c :: rest) := by
  unfold Complete
  rwa [counted_plain hc]

/-- What holds of the empty text, and goes on along the scan of the estimator, holds of every
complete text. -/
theorem scan_induction {motive : (s : Bytes) → Complete s → Prop} (nil : ∀ h, motive [] h)
    (plain : ∀ c rest h (hc : c ≠ 37), motive rest (h.of_plain hc) → motive (c :: rest) h)
    (percent : ∀ x y tail h, motive tail h.of_percent → motive (37 :: x :: y :: tail) h)
    (s : Bytes) (h : Complete s) : motive s h := by
  induction hlen : s.length using Nat.strong_induction_on generalizing s with
  | _ n ih =>
    subst hlen
    cases s with
    | nil => exact nil h
    | cons c rest =>
        by_cases hc : c = 37
        · subst hc
          obtain ⟨x, y, tail, rfl⟩ := h.exists_of_percent
          have hshorter : tail.length < (37 :: x :: y :: tail).length := by
            simp only [List.length_cons]
            omega
          exact percent x y tail h (ih tail.length hshorter tail h.of_percent rfl)
        · exact plain c rest h hc (ih rest.length (by simp) rest (h.of_plain hc) rfl)

/-- On a complete parameter the estimator reads nothing behind its end. -/
theorem estimate_parameter_text {buffer : Bytes} (h : Complete (parameterText buffer)) :
    estimateDecodedLength (parameterText buffer) = estimateDecodedLength buffer := by
  have hbehind : ∀ {s : Bytes}, Complete s → Unended s →
      estimateDecodedLength (s ++ buffer.dropWhile fun c => !endsParameter c) =
        estimateDecodedLength s := by
    intro s hs
    induction s, hs using scan_induction with
    | nil _ =>
        intro _
        cases htail : buffer.dropWhile fun c => !endsParameter c with
        | nil => rfl
        | cons c tail =>
            have hne : buffer.dropWhile (fun c => !endsParameter c) ≠ [] := by
              rw [htail]
              exact List.cons_ne_nil c tail
            have hends : endsParameter c = true := by
              simpa [htail] using List.head_dropWhile_not (fun c => !endsParameter c) hne
            simp [estimateDecodedLength, estimateFrom, hends]
    | plain c rest _ hc ih =>
        intro hs
        obtain ⟨hends, hrest⟩ := unended_cons_iff.mp hs
        rw [List.cons_append, estimate_plain hends hc, estimate_plain hends hc, ih hrest]
    | percent x y tail _ ih =>
        intro hs
        have htail : Unended tail := fun c hc => hs c (by simp [hc])
        rw [List.cons_append, List.cons_append, List.cons_append, estimate_percent,
          estimate_percent, ih htail]
  have hsplit := hbehind h (unended_parameter_text buffer)
  unfold parameterText at hsplit
  rw [List.takeWhile_append_dropWhile] at hsplit
  exact hsplit.symm

/-! ## What the estimate lacks -/

/-- At a counted `%` the decoder writes one byte and what follows makes it write; and two more
when the `%` is stray. -/
theorem decode_percent_length {x y : UInt8} {tail : Bytes} (h : Unended (x :: y :: tail)) :
    (decodeStatusParam (37 :: x :: y :: tail)).length =
      (decodeStatusParam tail).length + 1 + if isStray (x :: y :: tail) then 2 else 0 := by
  obtain ⟨hx, hy, htail⟩ := by simpa only [unended_cons_iff] using h
  have hpercent : endsParameter 37 = false := by decide
  cases hdigits : startsWithEscape (37 :: x :: y :: tail) with
  | true =>
      obtain ⟨_, _, hi, lo, _, hsplit, hhi, hlo⟩ := exists_of_starts_with_escape hdigits
      cases hsplit
      simp [decode_escape hhi hlo, isStray, startsWithDigits, hhi, hlo]
  | false =>
      rw [decode_copy hpercent hdigits]
      have hnot : startsWithDigits (x :: y :: tail) = false := by
        simpa [startsWithEscape] using hdigits
      cases hfirst : startsWithEscape (x :: y :: tail) with
      | true =>
          -- the escape ends one byte behind the three that the estimator passes over
          obtain ⟨_, z, hi, lo, rest, hsplit, hhi, hlo⟩ := exists_of_starts_with_escape hfirst
          cases hsplit
          have hz := Option.isSome_of_eq_some hlo
          have hcopy : startsWithEscape (z :: rest) = false := by
            simp [startsWithEscape, not_percent_of_digit hz]
          rw [decode_escape hhi hlo, decode_copy (goes_on_of_digit hz) hcopy]
          simp [isStray, hfirst]
      | false =>
          rw [decode_copy hx hfirst]
          cases hsecond : startsWithEscape (y :: tail) with
          | true =>
              -- the escape ends two bytes behind them
              obtain ⟨z, w, hi, lo, rest, hsplit, hhi, hlo⟩ := exists_of_starts_with_escape hsecond
              cases hsplit
              have hz := Option.isSome_of_eq_some hhi
              have hw := Option.isSome_of_eq_some hlo
              have hcopyz : startsWithEscape (z :: w :: rest) = false := by
                simp [startsWithEscape, not_percent_of_digit hz]
              have hcopyw : startsWithEscape (w :: rest) = false := by
                simp [startsWithEscape, not_percent_of_digit hw]
              rw [decode_escape hhi hlo, decode_copy (goes_on_of_digit hz) hcopyz,
                decode_copy (goes_on_of_digit hw) hcopyw]
              simp [isStray, hsecond]
          | false =>
              rw [decode_copy hy hsecond]
              simp [isStray, hnot, hfirst, hsecond]

/-- The number of counted `%`s that are stray. -/
def strayCount (s : Bytes) : Nat := (countedEscapes s).countP isStray

/-- The decoder writes what the estimator counts, and two bytes more for every stray `%`. -/
theorem decode_length_eq {s : Bytes} (h : Complete s) (hs : Unended s) :
    (decodeStatusParam s).length = estimateDecodedLength s + 2 * strayCount s := by
  induction s, h using scan_induction with
  | nil _ => rfl
  | plain c rest _ hc ih =>
      obtain ⟨hends, hrest⟩ := unended_cons_iff.mp hs
      have hcopy : startsWithEscape (c :: rest) = false := by simp [startsWithEscape, hc]
      rw [decode_copy hends hcopy, estimate_plain hends hc, strayCount, counted_plain hc,
        List.length_cons, ih hrest, strayCount]
      omega
  | percent x y tail _ ih =>
      have hbehind : Unended (x :: y :: tail) := (unended_cons_iff.mp hs).2
      have htail : Unended tail := fun c hc => hs c (by simp [hc])
      rw [decode_percent_length hbehind, ih htail, estimate_percent, strayCount, strayCount,
        counted_percent, List.countP_cons]
      split <;> omega

/-- There are no more counted `%`s than counted bytes. -/
theorem counted_length_le {s : Bytes} (h : Complete s) (hs : Unended s) :
    (countedEscapes s).length ≤ estimateDecodedLength s := by
  induction s, h using scan_induction with
  | nil _ => exact Nat.le_refl 0
  | plain c rest _ hc ih =>
      obtain ⟨hends, hrest⟩ := unended_cons_iff.mp hs
      rw [counted_plain hc, estimate_plain hends hc]
      exact (ih hrest).trans (Nat.le_succ _)
  | percent x y tail _ ih =>
      have htail : Unended tail := fun c hc => hs c (by simp [hc])
      rw [counted_percent, estimate_percent, List.length_cons]
      exact Nat.succ_le_succ (ih htail)

/-- The decoded length is the estimate and two bytes for every stray `%`: never below it, equal
to it when every counted `%` starts a valid escape, and at most three times as much. -/
theorem status_overflow_is_exact (buffer : Bytes) (h : Complete (parameterText buffer)) :
    (decodeStatusParam buffer).length =
        estimateDecodedLength buffer + 2 * strayCount (parameterText buffer) ∧
      estimateDecodedLength buffer ≤ (decodeStatusParam buffer).length ∧
      ((∀ rest ∈ countedEscapes (parameterText buffer), startsWithDigits rest = true) →
        (decodeStatusParam buffer).length = estimateDecodedLength buffer) ∧
      (decodeStatusParam buffer).length ≤ 3 * estimateDecodedLength buffer := by
  have hs := unended_parameter_text buffer
  have hlength : (decodeStatusParam buffer).length =
      estimateDecodedLength buffer + 2 * strayCount (parameterText buffer) := by
    rw [← decode_parameter_text, ← estimate_parameter_text h]
    exact decode_length_eq h hs
  have hstray : strayCount (parameterText buffer) ≤ estimateDecodedLength buffer := by
    rw [← estimate_parameter_text h]
    exact List.countP_le_length.trans (counted_length_le h hs)
  refine ⟨hlength, by omega, fun hvalid => ?_, by omega⟩
  have hnone : strayCount (parameterText buffer) = 0 := by
    refine List.countP_eq_zero.mpr fun rest hrest hstray => ?_
    simp [isStray, hvalid rest hrest] at hstray
  rw [hlength, hnone, Nat.mul_zero, Nat.add_zero]

/-- The six bytes of two malformed escapes are decoded behind an estimate of two. -/
theorem status_overflow_is_exact_malformed :
    (decodeStatusParam (lit "%GZ%GZ\r\n")).length = 2 + 2 * 2 :=
  (status_overflow_is_exact (lit "%GZ%GZ\r\n") (by decide +kernel)).1

end Dvws
