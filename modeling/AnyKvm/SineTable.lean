import AnyKvm.Rfc1321
import AnyKvm.SineBounds

/-! The table of MD5 is what RFC 1321 says of it, and not only a list of constants. -/
namespace AnyKvm
namespace Rfc1321
open SineBounds

/-- The sum of 32 terms is near enough for all entries. -/
theorem radius_lt {k : ℕ} (hk : k ≤ 64) : 1024 * (4294967296 * ((2 ^ k - 1) * radius 31)) < 1 := by
  have hpow : (2 : ℝ) ^ k ≤ 2 ^ 64 := pow_le_pow_right₀ one_le_two hk
  have hradius : radius 31 = 33 / (Nat.factorial 32 * 32) := by
    norm_num [radius]
  rw [hradius]
  calc (1024 * (4294967296 * ((2 ^ k - 1) * (33 / (Nat.factorial 32 * 32)))) : ℝ)
      ≤ 1024 * (4294967296 * (2 ^ 64 * (33 / (Nat.factorial 32 * 32)))) := by
        gcongr
        linarith
    _ < 1 := by norm_num [Nat.factorial]

/-- The entry is as near to the power of the sum as it has to be. -/
def Near (k : ℕ) : Prop :=
  ((T k).toNat * 1024 + 1) * Nat.factorial 31 ^ k ≤ 4294967296 * (partialSum 31 ^ k).im.natAbs * 1024 ∧
    4294967296 * (partialSum 31 ^ k).im.natAbs * 1024 + Nat.factorial 31 ^ k ≤
      ((T k).toNat + 1) * 1024 * Nat.factorial 31 ^ k

instance (k : ℕ) : Decidable (Near k) := inferInstanceAs (Decidable (_ ∧ _))

theorem table_near : ∀ k < 65, 0 < k → Near k := by decide +kernel

/-- `T[i]` is the integer part of 4294967296 times abs(sin(i)), where i is in radians. -/
theorem table_sine {i : ℕ} (hpos : 0 < i) (hlast : i ≤ 64) : (T i).toNat = ⌊4294967296 * |Real.sin i|⌋₊ := by
  obtain ⟨hlow,hhigh⟩ := table_near i (by omega) hpos
  have hden : (0 : ℝ) < (Nat.factorial 31 : ℝ) ^ i := by positivity
  refine (floor_eq_of_near hden (by norm_num) (sin_near (by norm_num) i) (radius_lt hlast) ?_ ?_).symm
  · rw [← Int.cast_abs,Int.abs_eq_natAbs]
    exact_mod_cast hlow
  · rw [← Int.cast_abs,Int.abs_eq_natAbs,Int.cast_natCast]
    have h : (4294967296 * (partialSum 31 ^ i).im.natAbs * 1024 + Nat.factorial 31 ^ i : ℝ) ≤
        ((T i).toNat + 1) * 1024 * Nat.factorial 31 ^ i := by exact_mod_cast hhigh
    linarith

end Rfc1321
end AnyKvm
