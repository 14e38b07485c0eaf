import AnyKvm.PlaneBounds
import AnyKvm.FixedPoint

/-! Where the scaled conversions of `video.rs` take a pixel from, against the place without rounding. -/
namespace AnyKvm
namespace Colour

open Outcome Word FixedPoint

def idealScale (src dst : ℕ) : ℕ := if dst > 1 then ((src - 1) <<< 16) / (dst - 1) else 0

/-- The sample index before it is clamped. -/
def position (src dst d : ℕ) : ℕ := (d * idealScale src dst) >>> 16

/-- The sampling in one direction: nothing overflows, the clamp does nothing, and the index is the right one or
the one before. -/
structure SamplesSoundly (W : Word) (src dst : ℕ) : Prop where
  scale_ok : scale W src dst = .ok (idealScale src dst)
  sample_ok : ∀ d < dst, sample W d (idealScale src dst) src = .ok (position src dst d)
  shift_le : (src - 1) <<< 16 ≤ 2 ^ 32 - 1
  product_le : ∀ d < dst, d * idealScale src dst ≤ 2 ^ 32 - 1
  position_le : ∀ d < dst, position src dst d ≤ src - 1
  monotone : ∀ d d', d ≤ d' → d' < dst → position src dst d ≤ position src dst d'
  same : src = dst → ∀ d < dst, position src dst d = d
  close : 1 < dst → ∀ d < dst,
    position src dst d ≤ d * (src - 1) / (dst - 1) ∧ d * (src - 1) / (dst - 1) ≤ position src dst d + 1

section Extents
variable {W : Word} {src dst d : ℕ}

theorem idealScale_eq (hdst : 1 < dst) : idealScale src dst = ratio (2 ^ 16) (src - 1) (dst - 1) := by
  rw [idealScale,if_pos hdst,Nat.shiftLeft_eq,ratio]

theorem idealScale_of_le (hdst : dst ≤ 1) : idealScale src dst = 0 := if_neg (by omega)

theorem position_eq (hdst : 1 < dst) :
    position src dst d = d * ratio (2 ^ 16) (src - 1) (dst - 1) / 2 ^ 16 := by
  rw [position,idealScale_eq hdst,Nat.shiftRight_eq_div_pow]

theorem position_of_le (hdst : dst ≤ 1) : position src dst d = 0 := by
  rw [position,idealScale_of_le hdst,Nat.mul_zero,Nat.zero_shiftRight]

theorem mul_idealScale_le (hd : d < dst) : d * idealScale src dst ≤ (src - 1) <<< 16 := by
  rcases Nat.lt_or_ge 1 dst with hdst | hdst
  · rw [idealScale_eq hdst,Nat.shiftLeft_eq]
    exact mul_ratio_le (by omega)
  · rw [idealScale_of_le hdst,Nat.mul_zero]
    exact Nat.zero_le _

theorem position_le (hd : d < dst) : position src dst d ≤ src - 1 := by
  rcases Nat.lt_or_ge 1 dst with hdst | hdst
  · rw [position_eq hdst]
    exact mul_ratio_div_le (by omega)
  · rw [position_of_le hdst]
    exact Nat.zero_le _

theorem position_self (hd : d < dst) : position dst dst d = d := by
  rcases Nat.lt_or_ge 1 dst with hdst | hdst
  · rw [position_eq hdst]
    exact mul_ratio_self_div (Nat.two_pow_pos 16) (by omega)
  · rw [position_of_le hdst]
    omega

theorem shift_le (hsrc : src ≤ 65535) : (src - 1) <<< 16 ≤ 2 ^ 32 - 1 := by
  rw [Nat.shiftLeft_eq]
  omega

/-- A word of at least 32 bits loses nothing in the shift. -/
theorem scaled_eq (hbits : ∀ n ∈ W.bits, 32 ≤ n) (hsrc : src ≤ 65535) : scaled W src dst = idealScale src dst := by
  have hwrap : W.shl (src - 1) 16 = (src - 1) <<< 16 := by
    unfold shl wrap
    cases hW : W.bits with
    | none => rfl
    | some n =>
      have hpow : 2 ^ 32 ≤ 2 ^ n := Nat.pow_le_pow_right Nat.two_pos (hbits n hW)
      have hshift := shift_le hsrc
      exact Nat.mod_eq_of_lt (by omega)
  rw [scaled,hwrap,idealScale]

theorem nearest_eq (hbits : ∀ n ∈ W.bits, 32 ≤ n) (hsrc : src ≤ 65535) (hd : d < dst) :
    nearest W src dst d = position src dst d := by
  rw [nearest,scaled_eq hbits hsrc]
  exact Nat.min_eq_left (position_le hd)

/-- Both conversions that scale, in both directions and for both planes, take the scale of `scale` and the index
of `sample`. -/
theorem samples_soundly (hbits : ∀ n ∈ W.bits, 32 ≤ n) (hsrc : 1 ≤ src ∧ src ≤ 65535)
    (hdst : 1 ≤ dst ∧ dst ≤ 65535) : SamplesSoundly W src dst where
  scale_ok := by rw [scale_eq hsrc.1,scaled_eq hbits hsrc.2]
  sample_ok d hd := by rw [← scaled_eq hbits hsrc.2,sample_eq hsrc.1 hd,nearest_eq hbits hsrc.2 hd]
  shift_le := shift_le hsrc.2
  product_le d hd := (mul_idealScale_le hd).trans (shift_le hsrc.2)
  position_le d hd := position_le hd
  monotone d d' hdd hd' := by
    rcases Nat.lt_or_ge 1 dst with hlt | hge
    · rw [position_eq hlt,position_eq hlt]
      exact mul_ratio_div_mono hdd
    · rw [position_of_le hge]
      exact Nat.zero_le _
  same := by
    rintro rfl d hd
    exact position_self hd
  close hlt d hd := by
    have hm : 0 < dst - 1 := by omega
    rw [position_eq hlt]
    exact ⟨mul_ratio_div_le_exact (Nat.two_pow_pos 16) hm,exact_le_mul_ratio_div hm (by omega)⟩

theorem samples_soundly_armv7 : SamplesSoundly armv7 65535 65534 :=
  samples_soundly (by decide) (by decide) (by decide)

end Extents
end Colour
end AnyKvm
