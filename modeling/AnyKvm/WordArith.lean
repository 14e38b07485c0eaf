import AnyKvm.Outcome
import Mathlib.Algebra.Ring.Nat
import Mathlib.Data.Nat.Basic

/-! Arithmetic on machine words of unsigned integers, and what goes wrong in a computation with them. -/
namespace AnyKvm

/-- What ends a computation besides a panic. -/
inductive Fault
  | overflow
  | failed (message : String)
  deriving DecidableEq, Repr

/-- Unsigned integers of so many bits, or without a bound. Where overflow is not checked, results wrap. -/
structure Word where
  bits : Option ℕ
  checked : Bool

namespace Word

open Outcome

variable (W : Word)

/-- A number that a word can hold. -/
def Fits (a : ℕ) : Prop := ∀ n ∈ W.bits, a < 2 ^ n

/-- A number of bytes that a slice or a vector can have: half of the numbers of a word. -/
def Holds (a : ℕ) : Prop := W.Fits (2 * a)

instance (a : ℕ) : Decidable (W.Fits a) := inferInstanceAs (Decidable (∀ n ∈ W.bits, a < 2 ^ n))

instance (a : ℕ) : Decidable (W.Holds a) := inferInstanceAs (Decidable (W.Fits (2 * a)))

def wrap (a : ℕ) : ℕ := W.bits.elim a (a % 2 ^ ·)

/-- A result that may not fit. -/
def carry (a : ℕ) : Outcome Fault ℕ :=
  if W.Fits a then .ok a
  else if W.checked then .err .overflow
  else .ok (W.wrap a)

def add (a b : ℕ) : Outcome Fault ℕ := W.carry (a + b)

def mul (a b : ℕ) : Outcome Fault ℕ := W.carry (a * b)

def sub (a b : ℕ) : Outcome Fault ℕ :=
  if b ≤ a then .ok (a - b)
  else if W.checked then .err .overflow
  else .ok (W.wrap (a + W.bits.elim b (2 ^ ·) - b))

/-- `a << n`: the bits that are shifted out are no overflow. -/
def shl (a n : ℕ) : ℕ := W.wrap (a <<< n)

variable {W}

theorem Fits.mono {a b : ℕ} (h : W.Fits b) (hab : a ≤ b) : W.Fits a :=
  fun n hn => Nat.lt_of_le_of_lt hab (h n hn)

theorem Holds.fits {a : ℕ} (h : W.Holds a) : W.Fits a := Fits.mono h (by omega)

theorem fits_wrap (a : ℕ) : W.Fits (W.wrap a) := by
  intro n hn
  rw [wrap,Option.mem_def.mp hn]
  exact Nat.mod_lt _ (Nat.two_pow_pos n)

theorem carry_of_fits {a : ℕ} (h : W.Fits a) : W.carry a = .ok a := if_pos h

theorem add_of_fits {a b : ℕ} (h : W.Fits (a + b)) : W.add a b = .ok (a + b) := carry_of_fits h

theorem mul_of_fits {a b : ℕ} (h : W.Fits (a * b)) : W.mul a b = .ok (a * b) := carry_of_fits h

theorem sub_of_le {a b : ℕ} (h : b ≤ a) : W.sub a b = .ok (a - b) := if_pos h

/-- A result that does not fit is an overflow where this is checked. -/
theorem carry_of_not_fits {a : ℕ} (hchecked : W.checked = true) (h : ¬ W.Fits a) :
    W.carry a = .err .overflow := by
  rw [carry,if_neg h,if_pos hchecked]

theorem mul_ok_of_le {a b c a' b' : ℕ} (h : W.mul a b = .ok c) (hle : a' * b' ≤ a * b) :
    ∃ c', W.mul a' b' = .ok c' := by
  unfold mul carry at *
  by_cases hfits : W.Fits (a * b)
  · exact ⟨_,if_pos (hfits.mono hle)⟩
  · rw [if_neg hfits] at h
    by_cases hchecked : W.checked = true
    · rw [if_pos hchecked] at h
      cases h
    · rw [if_neg hchecked]
      split <;> exact ⟨_,rfl⟩

end Word
end AnyKvm
