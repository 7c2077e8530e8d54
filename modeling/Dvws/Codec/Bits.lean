import Mathlib.Data.List.Basic
import Mathlib.Algebra.Order.Ring.Nat

/-!
# Numbers as bits

`bits w n` are the `w` lowest bits of a number, the highest first. A number put together from two
has their bits one after the other (`bits_concat`), and bits of a known width can be read back
(`bits_injective`), also when those of several numbers follow one another
(`flatMap_bits_injective`). Texts that write the same bits in groups of different widths are
compared with these lemmas.
-/

namespace Dvws.Codec

/-- The lowest bits of a number, the highest of them first. -/
def bits : Nat → Nat → List Bool
  | 0, _ => []
  | w + 1, n => bits w (n / 2) ++ [decide (n % 2 = 1)]

/-- There are as many bits as the width says. -/
@[simp] theorem length_bits (w n : Nat) : (bits w n).length = w := by
  induction w generalizing n with
  | zero => rfl
  | succ w ih => simp [bits, ih]

/-- The bits of a number are those of its high part and of its low part. -/
theorem bits_add (v w n : Nat) : bits (v + w) n = bits v (n / 2 ^ w) ++ bits w n := by
  induction w generalizing n with
  | zero => simp [bits]
  | succ w ih =>
      have hhigh : n / 2 / 2 ^ w = n / 2 ^ (w + 1) := by
        rw [Nat.div_div_eq_div_mul, Nat.pow_succ']
      rw [← Nat.add_assoc, bits, bits, ih, hhigh, List.append_assoc]

/-- Only the low part of a number matters to its lowest bits. -/
theorem bits_mod (w n : Nat) : bits w (n % 2 ^ w) = bits w n := by
  induction w generalizing n with
  | zero => rfl
  | succ w ih =>
      have hhigh : n % 2 ^ (w + 1) / 2 = n / 2 % 2 ^ w := by
        rw [Nat.pow_succ', Nat.mod_mul_right_div_self]
      have hlow : n % 2 ^ (w + 1) % 2 = n % 2 := by
        rw [Nat.pow_succ', Nat.mod_mul_right_mod]
      rw [bits, bits, hhigh, hlow, ih]

/-- A number put together from two has the bits of both. -/
theorem bits_concat {w b : Nat} (v a : Nat) (hb : b < 2 ^ w) :
    bits (v + w) (a * 2 ^ w + b) = bits v a ++ bits w b := by
  have hhigh : (a * 2 ^ w + b) / 2 ^ w = a := by
    rw [Nat.mul_comm, Nat.mul_add_div (Nat.two_pow_pos w), Nat.div_eq_of_lt hb, Nat.add_zero]
  have hlow : bits w (a * 2 ^ w + b) = bits w b := by
    rw [← bits_mod, Nat.mul_comm, Nat.mul_add_mod, Nat.mod_eq_of_lt hb]
  rw [bits_add, hhigh, hlow]

/-- All bits of zero are clear. -/
theorem bits_zero (w : Nat) : bits w 0 = List.replicate w false := by
  induction w with
  | zero => rfl
  | succ w ih => simp [bits, ih, List.replicate_succ']

/-- A number below the bound of its width can be read back from its bits. -/
theorem bits_injective {w n m : Nat} (hn : n < 2 ^ w) (hm : m < 2 ^ w) (h : bits w n = bits w m) :
    n = m := by
  induction w generalizing n m with
  | zero => omega
  | succ w ih =>
      rw [Nat.pow_succ] at hn hm
      obtain ⟨hhigh, hlow⟩ := List.append_inj' h rfl
      have hhalf : n / 2 = m / 2 := ih (by omega) (by omega) hhigh
      have hparity : n % 2 = 1 ↔ m % 2 = 1 := by simpa using hlow
      omega

section Sequences

variable {α : Type*} {value : α → Nat} {w : Nat}

/-- Several numbers have as many bits as each of them together. -/
theorem length_flatMap_bits (w : Nat) (value : α → Nat) (xs : List α) :
    (xs.flatMap fun x => bits w (value x)).length = w * xs.length := by
  induction xs with
  | nil => simp
  | cons x xs ih =>
      rw [List.flatMap_cons, List.length_append, length_bits, ih, List.length_cons, Nat.mul_succ,
        Nat.add_comm]

/-- What is written in bits one after the other can be read back. -/
theorem flatMap_bits_injective {p : α → Prop} {xs ys : List α}
    (hinj : ∀ x y, p x → p y → bits w (value x) = bits w (value y) → x = y)
    (hxs : ∀ x ∈ xs, p x) (hys : ∀ y ∈ ys, p y) (hlength : xs.length = ys.length)
    (h : (xs.flatMap fun x => bits w (value x)) = ys.flatMap fun y => bits w (value y)) :
    xs = ys := by
  induction xs generalizing ys with
  | nil => exact (List.length_eq_zero_iff.mp hlength.symm).symm
  | cons x xs ih =>
      cases ys with
      | nil => cases hlength
      | cons y ys =>
          rw [List.flatMap_cons, List.flatMap_cons] at h
          obtain ⟨hfirst, hrest⟩ := List.append_inj h (by rw [length_bits, length_bits])
          rw [List.forall_mem_cons] at hxs hys
          rw [hinj x y hxs.1 hys.1 hfirst, ih hxs.2 hys.2 (Nat.succ.inj hlength) hrest]

end Sequences

end Dvws.Codec
