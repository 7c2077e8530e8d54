import Mathlib.Algebra.Order.Ring.Nat
import Mathlib.Data.List.TakeWhile
import Dvws.Text.Search

/-!
# Byte strings, C strings and `std::string` slicing

The strings of the server are lists of bytes. A `const char*` argument is the buffer behind it,
read up to its first NUL (`cstr`); the end of the list stands for a NUL, so a list without one
is a NUL-terminated string. `std::string::substr` and `compare` throw when their start lies past
the end of the string, which is the only exception the modelled code can raise (`Exn`); a failed
allocation is not modelled.
-/

namespace Dvws

/-- A string of bytes. -/
abbrev Bytes := List UInt8

/-- Equality of strings of bytes is decided byte by byte. -/
instance : LawfulBEq Bytes := inferInstance

/-- The bytes of a string literal of the source. -/
def lit (s : String) : Bytes := s.toByteArray.data.toList

/-- What a C function reads of a buffer: everything before the first NUL. -/
def cstr (buffer : Bytes) : Bytes := buffer.takeWhile (· ≠ 0)

/-- What is evaluated for every byte of a text holds of every byte. -/
theorem forall_mem_of_all {s : Bytes} {p : UInt8 → Prop} [DecidablePred p]
    (h : s.all (fun c => decide (p c)) = true) : ∀ c ∈ s, p c := by
  intro c hc
  exact of_decide_eq_true (List.all_eq_true.mp h c hc)

/-- A text without NUL bytes is read whole. -/
theorem cstr_of_not_mem {s : Bytes} (h : 0 ∉ s) : cstr s = s :=
  List.takeWhile_eq_self_iff.mpr fun b hb => by
    simp only [ne_eq, decide_not, Bool.not_eq_true', decide_eq_false_iff_not]
    rintro rfl
    exact h hb

/-- What is read of a buffer contains no NUL. -/
theorem zero_not_mem_cstr (buffer : Bytes) : 0 ∉ cstr buffer := fun h => by
  simpa using List.mem_takeWhile_imp h

/-- What is read of a text goes on behind a part without NUL bytes. -/
theorem cstr_append {front : Bytes} (h : 0 ∉ front) (rest : Bytes) :
    cstr (front ++ rest) = front ++ cstr rest := by
  unfold cstr
  refine List.takeWhile_append_of_pos fun c hc => ?_
  simp only [ne_eq, decide_not, Bool.not_eq_true', decide_eq_false_iff_not]
  rintro rfl
  exact h hc

/-- What stands behind a NUL is not read. -/
theorem cstr_append_of_mem {front : Bytes} (h : 0 ∈ front) (rest : Bytes) :
    cstr (front ++ rest) = cstr front := by
  unfold cstr
  rw [List.takeWhile_append, if_neg]
  intro hlength
  have hwhole : cstr front = front := (List.takeWhile_prefix _).eq_of_length hlength
  exact zero_not_mem_cstr front (by rw [hwhole]; exact h)

/-- Zeros behind a text are not read. -/
theorem cstr_append_zeros (text : Bytes) (count : Nat) :
    cstr (text ++ List.replicate count 0) = cstr text := by
  by_cases hzero : 0 ∈ text
  · exact cstr_append_of_mem hzero _
  · have hnone : cstr (List.replicate count 0) = [] := by
      cases count <;> rfl
    rw [cstr_append hzero, hnone, List.append_nil, cstr_of_not_mem hzero]

/-- What ends a computation early. -/
inductive Exn where
  /-- `std::out_of_range`, from a slice that starts past the end of its string -/
  | outOfRange
  /-- a copy past the end of its buffer, after which nothing is defined; it is taken to end the
  process -/
  | overrun
  deriving DecidableEq, Repr

@[simp] theorem pure_eq_ok {α : Type} (a : α) : (pure a : Except Exn α) = .ok a := rfl

@[simp] theorem ok_bind {α β : Type} (a : α) (f : α → Except Exn β) :
    ((.ok a : Except Exn α) >>= f) = f a := rfl

/-- `s.substr(pos, count)`; `none` is `npos`, which asks for everything from `pos` on. -/
def substr (s : Bytes) (pos : Nat) (count : Option Nat) : Except Exn Bytes :=
  if s.length < pos then .error .outOfRange
  else match count with
    | some n => .ok ((s.drop pos).take n)
    | none => .ok (s.drop pos)

/-- A slice that starts inside its string does not throw. -/
theorem substr_of_le {s : Bytes} {pos : Nat} (h : pos ≤ s.length) (count : Option Nat) :
    substr s pos count =
      .ok (match count with | some n => (s.drop pos).take n | none => s.drop pos) := by
  cases count <;> simp [substr, Nat.not_lt.mpr h]

/-- `s.find(pat, pos)`, with `none` for `npos`. -/
def findFrom (s pat : Bytes) (pos : Nat) : Option Nat :=
  (Text.find pat (s.drop pos)).map (· + pos)

/-- A match of a nonempty pattern lies inside the string. -/
theorem findFrom_lt {s pat : Bytes} {pos i : Nat} (hpat : pat ≠ [])
    (h : findFrom s pat pos = some i) : pos ≤ i ∧ i + pat.length ≤ s.length := by
  obtain ⟨j, hj, rfl⟩ := Option.map_eq_some_iff.mp h
  have hbound := Text.find_add_length_le hj
  have hpos : 0 < pat.length := List.length_pos_iff.mpr hpat
  rw [List.length_drop] at hbound
  omega

/-- `isspace` in the C locale. -/
def isSpace (c : UInt8) : Bool := c = 32 || (9 ≤ c && c ≤ 13)

/-- Addition of `size_t` numbers. -/
def sizeAdd (a b : Nat) : Nat := (a + b) % 2 ^ 64

/-- Subtraction of `size_t` numbers. -/
def sizeSub (a b : Nat) : Nat := (a + 2 ^ 64 - b) % 2 ^ 64

/-- A sum that is a `size_t` number does not wrap around. -/
theorem size_add_eq {a b : Nat} (h : a + b < 2 ^ 64) : sizeAdd a b = a + b := Nat.mod_eq_of_lt h

/-- A difference of a number and a smaller one does not wrap around. -/
theorem size_sub_eq {a b : Nat} (hle : b ≤ a) (h : a < 2 ^ 64) : sizeSub a b = a - b := by
  have hpositive : a + 2 ^ 64 - b = (a - b) + 2 ^ 64 := by omega
  rw [sizeSub, hpositive, Nat.add_mod_right]
  exact Nat.mod_eq_of_lt (Nat.lt_of_le_of_lt (Nat.sub_le _ _) h)

/-- `std::to_string` of an unsigned number. -/
def toDecimal (n : Nat) : Bytes := lit (toString n)

/-- Different literals have different bytes. -/
theorem lit_injective : Function.Injective lit := by
  intro s t h
  have hbytes : s.toByteArray = t.toByteArray := ByteArray.ext (Array.toList_inj.mp h)
  exact String.toByteArray_inj.mp hbytes

/-- A number can be read back from its digits. -/
theorem to_decimal_injective : Function.Injective toDecimal := by
  intro n m h
  have hdigits : (toString n).toList = (toString m).toList :=
    congrArg String.toList (lit_injective h)
  have hvalue := congrArg (fun digits => Nat.ofDigitChars 10 digits 0) hdigits
  simpa using hvalue

end Dvws
