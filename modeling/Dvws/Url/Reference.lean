import Mathlib.Data.List.Basic

/-!
# URL references

A reference is a scheme, an authority and a path, each of which may be left out. What is left out
is taken from the URL of the document that holds the reference. `origin` is the scheme and the
authority that a client ends up with. A reference that starts with a slash is a path, and leaves
both as they are, unless a second slash follows and makes the text behind it an authority
(`origin_eq_iff`).
-/

namespace Dvws.Url

/-- The scheme of a URL and its authority, which names the server. -/
structure Origin where
  scheme : List UInt8
  authority : Option (List UInt8)
  deriving DecidableEq, Repr

/-- The slash, the question mark and the number sign end a scheme or an authority. -/
def endsPart (c : UInt8) : Bool := c == 47 || c == 63 || c == 35

/-- The scheme of a reference, which a colon ends. -/
def schemeOf (reference : List UInt8) : Option (List UInt8) :=
  let front := reference.takeWhile fun c => !endsPart c && c != 58
  if front ≠ [] ∧ reference[front.length]? = some 58 then some front else none

/-- The authority of a reference without a scheme, which two slashes announce. -/
def authorityOf (reference : List UInt8) : Option (List UInt8) :=
  if [47, 47] <+: reference then some ((reference.drop 2).takeWhile fun c => !endsPart c)
  else none

/-- Where a reference leads from a document at `base`. -/
def origin (base : Origin) (reference : List UInt8) : Origin :=
  match schemeOf reference with
  | some scheme => ⟨scheme, authorityOf (reference.drop (scheme.length + 1))⟩
  | none =>
      match authorityOf reference with
      | some authority => ⟨base.scheme, some authority⟩
      | none => base

/-- A reference that starts with a slash has no scheme. -/
theorem scheme_of_slash (rest : List UInt8) : schemeOf (47 :: rest) = none := by
  have hfront : (47 :: rest).takeWhile (fun c => !endsPart c && c != 58) = [] := rfl
  rw [schemeOf, hfront]
  exact if_neg fun h => h.1 rfl

/-- A reference that starts with a slash leads to the same place from everywhere, or stays where it
is, and the latter exactly when there is one slash only. -/
theorem origin_eq_iff (rest : List UInt8) :
    (∀ base, origin base (47 :: rest) = base) ↔ ¬ [47, 47] <+: 47 :: rest := by
  have hscheme := scheme_of_slash rest
  constructor
  · intro hstays hdouble
    -- a document without an authority tells the difference
    have hbase := hstays ⟨[], none⟩
    rw [origin, hscheme, authorityOf, if_pos hdouble] at hbase
    cases hbase
  · intro hsingle base
    rw [origin, hscheme, authorityOf, if_neg hsingle]

end Dvws.Url
