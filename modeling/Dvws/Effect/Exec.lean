/-!
# Computations with a state, an event log and exceptions

`Exec σ ε χ α` is a computation over a state `σ` that emits events `ε` to the outside and either
returns an `α` or leaves by an exception `χ`. What it did before an exception stays done.
`Behaves emits keep x` is the frame rule used for whole procedures: from every state `x` returns,
emits only events with `emits`, and leaves the part `keep` of the state as it was. It is closed
under the ways to build computations, so a procedure is checked call by call.
-/

namespace Dvws.Effect

/-- What running a computation gives. -/
structure Outcome (σ ε χ α : Type) where
  value : Except χ α
  state : σ
  events : List ε

/-- A computation. -/
def Exec (σ ε χ α : Type) : Type := σ → Outcome σ ε χ α

variable {σ ε χ α β κ : Type}

/-- Sequencing stops at an exception and joins the events in order. -/
instance : Monad (Exec σ ε χ) where
  pure a := fun s => ⟨.ok a, s, []⟩
  bind x f := fun s =>
    match x s with
    | ⟨.ok a, middle, first⟩ =>
        let out := f a middle
        ⟨out.value, out.state, first ++ out.events⟩
    | ⟨.error exn, final, events⟩ => ⟨.error exn, final, events⟩

/-- Emit one event. -/
def emit (e : ε) : Exec σ ε χ Unit := fun s => ⟨.ok (), s, [e]⟩

/-- Emit events in order. -/
def emitAll (es : List ε) : Exec σ ε χ Unit := fun s => ⟨.ok (), s, es⟩

/-- Read the state. -/
def get : Exec σ ε χ σ := fun s => ⟨.ok s, s, []⟩

/-- Change the state. -/
def modify (f : σ → σ) : Exec σ ε χ Unit := fun s => ⟨.ok (), f s, []⟩

/-- A pure computation that may throw. -/
def lift (x : Except χ α) : Exec σ ε χ α := fun s => ⟨x, s, []⟩

@[simp] theorem pure_run (a : α) (s : σ) : (pure a : Exec σ ε χ α) s = ⟨.ok a, s, []⟩ := rfl

@[simp] theorem emit_run (e : ε) (s : σ) : (emit e : Exec σ ε χ Unit) s = ⟨.ok (), s, [e]⟩ := rfl

@[simp] theorem emitAll_run (es : List ε) (s : σ) :
    (emitAll es : Exec σ ε χ Unit) s = ⟨.ok (), s, es⟩ := rfl

@[simp] theorem modify_run (f : σ → σ) (s : σ) :
    (modify f : Exec σ ε χ Unit) s = ⟨.ok (), f s, []⟩ := rfl

@[simp] theorem lift_run (x : Except χ α) (s : σ) :
    (lift x : Exec σ ε χ α) s = ⟨x, s, []⟩ := rfl

/-- A computation that returns hands its value and state on. -/
theorem bind_run_of_ok {x : Exec σ ε χ α} {s middle : σ} {a : α} {first : List ε}
    (h : x s = ⟨.ok a, middle, first⟩) (f : α → Exec σ ε χ β) :
    (x >>= f) s = ⟨(f a middle).value, (f a middle).state, first ++ (f a middle).events⟩ := by
  simp only [bind, h]

/-- A computation that throws ends the sequence. -/
theorem bind_run_of_error {x : Exec σ ε χ α} {s final : σ} {exn : χ} {events : List ε}
    (h : x s = ⟨.error exn, final, events⟩) (f : α → Exec σ ε χ β) :
    (x >>= f) s = ⟨.error exn, final, events⟩ := by
  simp only [bind, h]

@[simp] theorem lift_ok_bind (a : α) (f : α → Exec σ ε χ β) : (lift (.ok a) >>= f) = f a := rfl

@[simp] theorem get_bind_run (f : σ → Exec σ ε χ β) (s : σ) : (get >>= f) s = f s s := rfl

/-- From every state the computation returns, emits only events with `emits`, and leaves the
part `keep` of the state as it was. -/
structure Behaves (emits : ε → Prop) (keep : σ → κ) (x : Exec σ ε χ α) : Prop where
  returns : ∀ s, ∃ a, (x s).value = .ok a
  events : ∀ s, ∀ e ∈ (x s).events, emits e
  state : ∀ s, keep (x s).state = keep s

namespace Behaves

variable {emits emits' : ε → Prop} {keep : σ → κ} {x : Exec σ ε χ α}

/-- A computation that behaves ends with a value, keeps what it has to and emits only what
it may. -/
theorem exists_run (hx : Behaves emits keep x) (s : σ) :
    ∃ a middle first, x s = ⟨.ok a, middle, first⟩ ∧ keep middle = keep s ∧
      ∀ e ∈ first, emits e := by
  obtain ⟨a, ha⟩ := hx.returns s
  have hevents := hx.events s
  have hstate := hx.state s
  generalize x s = out at ha hevents hstate
  obtain ⟨value, middle, first⟩ := out
  cases ha
  exact ⟨a, middle, first, rfl, hstate, hevents⟩

/-- What follows a computation that behaves starts from a state with the kept part, and its
outcome is that of the sequence but for the events before it. -/
theorem bind_run (hx : Behaves emits keep x) (s : σ) (f : α → Exec σ ε χ β) :
    ∃ a middle first, (x >>= f) s =
        ⟨(f a middle).value, (f a middle).state, first ++ (f a middle).events⟩ ∧
      (x s).value = .ok a ∧ keep middle = keep s ∧ ∀ e ∈ first, emits e := by
  obtain ⟨a, middle, first, hrun, hmiddle, hfirst⟩ := hx.exists_run s
  exact ⟨a, middle, first, bind_run_of_ok hrun f, by rw [hrun], hmiddle, hfirst⟩

/-- A value that is already there behaves. -/
theorem pure (a : α) : Behaves emits keep (Pure.pure a : Exec σ ε χ α) :=
  ⟨fun _ => ⟨a, rfl⟩, fun _ _ he => (nomatch he), fun _ => rfl⟩

/-- Two computations that behave, one after the other, behave. -/
theorem bind {f : α → Exec σ ε χ β} (hx : Behaves emits keep x)
    (hf : ∀ a, Behaves emits keep (f a)) : Behaves emits keep (x >>= f) := by
  have hrun : ∀ s, ∃ b final events, (x >>= f) s = ⟨.ok b, final, events⟩ ∧
      keep final = keep s ∧ ∀ e ∈ events, emits e := by
    intro s
    obtain ⟨a, middle, first, hxs, hmiddle, hfirst⟩ := hx.exists_run s
    obtain ⟨b, final, second, hfs, hfinal, hsecond⟩ := (hf a).exists_run middle
    refine ⟨b, final, first ++ second, ?_, hfinal.trans hmiddle, ?_⟩
    · rw [bind_run_of_ok hxs, hfs]
    · intro e he
      exact (List.mem_append.mp he).elim (hfirst e) (hsecond e)
  refine ⟨fun s => ?_, fun s => ?_, fun s => ?_⟩
  all_goals obtain ⟨b, final, events, h, hfinal, hevents⟩ := hrun s
  · exact ⟨b, by rw [h]⟩
  · rw [h]
    exact hevents
  · rw [h]
    exact hfinal

/-- A single event that may be emitted behaves. -/
theorem emit {e : ε} (he : emits e) : Behaves emits keep (Effect.emit e : Exec σ ε χ Unit) :=
  ⟨fun _ => ⟨(), rfl⟩, fun _ _ hmem => (List.mem_singleton.mp hmem) ▸ he, fun _ => rfl⟩

/-- A list of events that may be emitted behaves. -/
theorem emitAll {es : List ε} (hes : ∀ e ∈ es, emits e) :
    Behaves emits keep (Effect.emitAll es : Exec σ ε χ Unit) :=
  ⟨fun _ => ⟨(), rfl⟩, fun _ => hes, fun _ => rfl⟩

/-- Reading the state behaves. -/
theorem get : Behaves emits keep (Effect.get : Exec σ ε χ σ) :=
  ⟨fun s => ⟨s, rfl⟩, fun _ _ he => (nomatch he), fun _ => rfl⟩

/-- A change outside the part that is kept behaves. -/
theorem modify {f : σ → σ} (hf : ∀ s, keep (f s) = keep s) :
    Behaves emits keep (Effect.modify f : Exec σ ε χ Unit) :=
  ⟨fun _ => ⟨(), rfl⟩, fun _ _ he => (nomatch he), hf⟩

/-- A pure computation that does not throw behaves. -/
theorem lift {v : Except χ α} (hv : ∃ a, v = .ok a) :
    Behaves emits keep (Effect.lift v : Exec σ ε χ α) :=
  ⟨fun _ => hv, fun _ _ he => (nomatch he), fun _ => rfl⟩

/-- A choice between two computations that behave behaves. -/
theorem ite {c : Prop} [Decidable c] {y : Exec σ ε χ α} (hx : Behaves emits keep x)
    (hy : Behaves emits keep y) : Behaves emits keep (if c then x else y) := by
  split
  · exact hx
  · exact hy

/-- Fewer events and a smaller kept part are promised too. -/
theorem weaken {κ' : Type} (hx : Behaves emits keep x) (hemits : ∀ e, emits e → emits' e)
    (part : κ → κ') : Behaves emits' (part ∘ keep) x :=
  ⟨hx.returns, fun s e he => hemits e (hx.events s e he), fun s => congrArg part (hx.state s)⟩

/-- A computation that keeps the whole state leaves it unchanged. -/
theorem state_eq (hx : Behaves emits id x) (s : σ) : (x s).state = s := hx.state s

end Behaves

/-- Events before, none of which has `p`, play no part. -/
theorem exists_mem_append_right_iff {p : ε → Prop} {first second : List ε}
    (h : ∀ e ∈ first, ¬ p e) : (∃ e ∈ first ++ second, p e) ↔ ∃ e ∈ second, p e := by
  constructor
  · intro hsome
    obtain ⟨e, he, hp⟩ := hsome
    obtain he | he := List.mem_append.mp he
    · exact absurd hp (h e he)
    · exact ⟨e, he, hp⟩
  · intro hsome
    obtain ⟨e, he, hp⟩ := hsome
    exact ⟨e, List.mem_append_right _ he, hp⟩

/-- Events behind, none of which has `p`, play no part. -/
theorem exists_mem_append_left_iff {p : ε → Prop} {first second : List ε}
    (h : ∀ e ∈ second, ¬ p e) : (∃ e ∈ first ++ second, p e) ↔ ∃ e ∈ first, p e := by
  constructor
  · intro hsome
    obtain ⟨e, he, hp⟩ := hsome
    obtain he | he := List.mem_append.mp he
    · exact ⟨e, he, hp⟩
    · exact absurd hp (h e he)
  · intro hsome
    obtain ⟨e, he, hp⟩ := hsome
    exact ⟨e, List.mem_append_left _ he, hp⟩

/-- The computation emits an event with `p` from this state. -/
def Emits (p : ε → Prop) (x : Exec σ ε χ α) (s : σ) : Prop := ∃ e ∈ (x s).events, p e

variable {p : ε → Prop}

@[simp] theorem emits_pure (a : α) (s : σ) : ¬ Emits p (pure a : Exec σ ε χ α) s := by
  intro hemits
  obtain ⟨e, he, -⟩ := hemits
  cases he

@[simp] theorem emits_emit (e : ε) (s : σ) : Emits p (emit e : Exec σ ε χ Unit) s ↔ p e := by
  simp [Emits]

/-- A computation that behaves without `p` emits no event with `p`. -/
theorem Behaves.not_emits {keep : σ → κ} {x : Exec σ ε χ α}
    (hx : Behaves (fun e => ¬ p e) keep x) (s : σ) : ¬ Emits p x s :=
  fun ⟨e, he, hp⟩ => hx.events s e he hp

/-- After a computation that behaves without `p`, there is an event with `p` when what follows
has one, whatever the state it starts from. -/
theorem Behaves.emits_bind_iff {keep : σ → κ} {x : Exec σ ε χ α} {f : α → Exec σ ε χ β} {s : σ}
    {a : α} {Q : Prop} (hx : Behaves (fun e => ¬ p e) keep x) (ha : (x s).value = .ok a)
    (hf : ∀ middle, Emits p (f a) middle ↔ Q) : Emits p (x >>= f) s ↔ Q := by
  obtain ⟨a', middle, first, hrun, hvalue, -, hfirst⟩ := hx.bind_run s f
  obtain rfl : a = a' := Except.ok.inj (ha.symm.trans hvalue)
  rw [← hf middle, Emits, Emits, hrun]
  exact exists_mem_append_right_iff hfirst

/-- After a computation that behaves without `p` and keeps the state, the events with `p` are
those of what follows. -/
theorem Behaves.emits_bind {x : Exec σ ε χ α} (hx : Behaves (fun e => ¬ p e) id x) {s : σ} {a : α}
    (ha : (x s).value = .ok a) (f : α → Exec σ ε χ β) :
    Emits p (x >>= f) s ↔ Emits p (f a) s := by
  obtain ⟨a', middle, first, hrun, hvalue, rfl, hfirst⟩ := hx.bind_run s f
  obtain rfl : a = a' := Except.ok.inj (ha.symm.trans hvalue)
  rw [Emits, Emits, hrun]
  exact exists_mem_append_right_iff hfirst

/-- What follows a computation without a result that emits nothing of a kind and keeps the state
decides alone whether something of that kind is emitted. -/
theorem Behaves.emits_bind_unit {x : Exec σ ε χ Unit} (hx : Behaves (fun e => ¬ p e) id x) (s : σ)
    (f : Unit → Exec σ ε χ β) : Emits p (x >>= f) s ↔ Emits p (f ()) s := by
  obtain ⟨a, ha⟩ := hx.returns s
  exact hx.emits_bind ha f

/-- Before something that never emits an event with `p`, the events with `p` are those of the
first computation. -/
theorem Behaves.emits_bind_silent {emits : ε → Prop} {keep : σ → κ} {x : Exec σ ε χ α}
    {f : α → Exec σ ε χ β} (hx : Behaves emits keep x) (hf : ∀ a middle, ¬ Emits p (f a) middle)
    (s : σ) : Emits p (x >>= f) s ↔ Emits p x s := by
  obtain ⟨a, middle, first, hrun, -, -⟩ := hx.exists_run s
  rw [Emits, Emits, bind_run_of_ok hrun, hrun]
  exact exists_mem_append_left_iff fun e he hp => hf a middle ⟨e, he, hp⟩

end Dvws.Effect
