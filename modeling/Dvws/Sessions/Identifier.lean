import Dvws.Router.Minting

/-!
# Session identifiers

`generate_session_id` of `session_manager.cpp`: the first value of the generator seeded with the
clock, combined with the process identity and written as eight hexadecimal digits. `Platform` has
the function as a parameter; `Platform.Generates` says that it is this one. Its identifiers are
words, so they stand in a header line and in a cookie as they are.
-/

namespace Dvws

/-- `generate_session_id`; `rand` is what `rand()` returns first after `srand`. -/
def generatedId (rand : Int → UInt32) (time : Int) (pid : Nat) : Bytes :=
  formatSessionId (rand time ^^^ UInt32.ofNat pid).toNat

/-- The identifiers are generated by `generate_session_id`. -/
def Platform.Generates (plat : Platform) : Prop :=
  ∃ rand, plat.sessionId = generatedId rand

/-- A letter, a digit or an underscore. -/
def isWordByte (c : UInt8) : Bool :=
  (48 ≤ c && c ≤ 57) || (65 ≤ c && c ≤ 90) || c == 95 || (97 ≤ c && c ≤ 122)

/-- Hexadecimal digits are word bytes. -/
theorem is_word_byte_hex_digit (n : Nat) : isWordByte (hexDigit (n % 16)) = true := by
  have hall : ∀ k < 16, isWordByte (hexDigit k) = true := by decide
  exact hall _ (Nat.mod_lt n (by decide))

/-- An identifier is a word. -/
theorem is_word_byte_of_mem_id {n : Nat} {c : UInt8} (h : c ∈ formatSessionId n) :
    isWordByte c = true := by
  unfold formatSessionId at h
  obtain h | h := List.mem_append.mp h
  · exact forall_mem_of_all (p := fun c => isWordByte c = true) (by decide) c h
  · obtain ⟨place, -, rfl⟩ := List.mem_map.mp h
    exact is_word_byte_hex_digit _

/-- What the server generates is a word. -/
theorem Platform.Generates.word {plat : Platform} (h : plat.Generates) :
    ∀ c ∈ generateSessionId plat, isWordByte c = true := by
  obtain ⟨rand, hrand⟩ := h
  intro c hc
  rw [generateSessionId, hrand] at hc
  exact is_word_byte_of_mem_id hc

/-- The bare surroundings, with generated identifiers. -/
def Platform.generating : Platform := { Platform.bare with sessionId := generatedId fun _ => 0 }

/-- The identifiers of `Platform.generating` are of the form that the server gives them. -/
theorem generating_generates : Platform.generating.Generates := ⟨fun _ => 0, rfl⟩

end Dvws
