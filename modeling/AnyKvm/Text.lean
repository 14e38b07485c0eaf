import Mathlib.Data.List.Basic

/-! Searching a text for a marker, and decimal numerals of bounded size.
Texts are lists of symbols; the search results are those of splitting at the marker. -/
namespace AnyKvm
namespace Text

section Search
variable {α : Type*} [DecidableEq α]

/-- What follows the first occurrence of a marker. -/
def after? (marker : List α) : List α → Option (List α)
  | [] => if marker = [] then some [] else none
  | a :: text =>
    if marker <+: a :: text then some ((a :: text).drop marker.length) else after? marker text

/-- What precedes the first occurrence of a marker: the whole text if there is none. -/
def upTo (marker : List α) : List α → List α
  | [] => []
  | a :: text => if marker <+: a :: text then [] else a :: upTo marker text

def contains (marker text : List α) : Bool := (after? marker text).isSome

theorem after?_append (marker text : List α) : after? marker (marker ++ text) = some text := by
  cases marker with
  | nil => cases text <;> simp [after?]
  | cons a marker =>
    have h : a :: marker <+: a :: (marker ++ text) := List.prefix_append (a :: marker) text
    rw [List.cons_append,after?,if_pos h]
    simp

/-- A text that lacks one symbol of the marker does not contain the marker. -/
theorem upTo_eq_self {marker text : List α} {a : α} (ha : a ∈ marker) (htext : a ∉ text) :
    upTo marker text = text := by
  induction text with
  | nil => rfl
  | cons b text ih =>
    have h : ¬ marker <+: b :: text := fun hp => htext (hp.subset ha)
    rw [upTo,if_neg h,ih fun hm => htext (List.mem_cons_of_mem b hm)]

theorem contains_append (marker text : List α) : contains marker (marker ++ text) = true := by
  rw [contains,after?_append,Option.isSome_some]

end Search

/-- Parse an unsigned decimal numeral below `bound`; a leading plus sign is allowed. -/
def parseDecimal (bound : ℕ) (text : List Char) : Option ℕ :=
  let digits := if text.head? = some '+' then text.tail else text
  if digits = [] ∨ digits.any (fun c => !c.isDigit) = true then none
  else
    let n := Nat.ofDigitChars 10 digits 0
    if n < bound then some n else none

def showDecimal (n : ℕ) : List Char := Nat.toDigits 10 n

theorem isDigit_of_mem_showDecimal {n : ℕ} {c : Char} (h : c ∈ showDecimal n) : c.isDigit = true :=
  Nat.isDigit_of_mem_toDigits (by decide) (by decide) h

theorem not_mem_showDecimal (n : ℕ) {c : Char} (hc : c.isDigit = false) : c ∉ showDecimal n := by
  intro h
  rw [isDigit_of_mem_showDecimal h] at hc
  cases hc

theorem parseDecimal_showDecimal {bound n : ℕ} (h : n < bound) :
    parseDecimal bound (showDecimal n) = some n := by
  have hhead : (showDecimal n).head? ≠ some '+' := by
    intro hplus
    exact not_mem_showDecimal n (by decide) (List.mem_of_head? hplus)
  have hdigits : ¬ (showDecimal n = [] ∨ (showDecimal n).any (fun c => !c.isDigit) = true) := by
    rintro (hnil | hany)
    · exact Nat.toDigits_ne_nil hnil
    · obtain ⟨c,hc,hbad⟩ := List.any_eq_true.mp hany
      rw [isDigit_of_mem_showDecimal hc] at hbad
      cases hbad
  have hvalue : Nat.ofDigitChars 10 (showDecimal n) 0 = n := Nat.ofDigitChars_ten_toDigits
  simp only [parseDecimal,if_neg hhead,if_neg hdigits,hvalue,if_pos h]

end Text
end AnyKvm
