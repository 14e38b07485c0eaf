import Mathlib.Data.Int.ModEq
import Mathlib.Tactic.Linarith
import Mathlib.Tactic.LinearCombination
import Mathlib.Tactic.Ring

/-! Extended sequence numbers of RTP.  A header carries the low bits of a number, and the
reader lengthens them to 64 bits by the last number that it knows. -/
namespace AnyKvm.Rtp

/-- `mk_extend!`, for the width of the number on the wire.  Masking with `ROC_MASK` is the
remainder by the number of roll-overs that 64 bits hold. -/
def extend (bits : ℕ) (prevExtSeq : Option ℕ) (seq : ℕ) : ℕ :=
  let max := 2^bits
  let half := max/2
  let seq := seq % max
  match prevExtSeq with
  | none => seq
  | some prevIndex =>
    let roc : ℤ := ↑(prevIndex / max)
    let prevSeq := prevIndex % max
    let v : ℤ :=
      if prevSeq < half then
        if seq > half+prevSeq then (roc-1) % 2^(64-bits) else roc
      else if prevSeq > seq+half then (roc+1) % 2^(64-bits)
      else roc
    if v < 0 then 0 else v.toNat*max+seq

def extendU8 : Option ℕ → ℕ → ℕ := extend 8
def extendU16 : Option ℕ → ℕ → ℕ := extend 16
def extendU32 : Option ℕ → ℕ → ℕ := extend 32
def extendU7 : Option ℕ → ℕ → ℕ := extend 7
def extendU15 : Option ℕ → ℕ → ℕ := extend 15

/-- Two numbers of 64 bits that are less than half of a round of the short ones apart, in
either direction. -/
def Near (bits prev n : ℕ) : Prop :=
  ∃ d : ℤ, 2*|d| < 2^bits ∧ (n : ℤ) = (prev+d) % 2^64

end AnyKvm.Rtp
