import Mathlib.Analysis.Complex.Basic
import Mathlib.Analysis.Complex.Trigonometric
import Mathlib.Algebra.Order.Floor.Semiring
import Mathlib.NumberTheory.Zsqrtd.GaussianInt

/-! Sines of natural numbers from Gaussian integers: the powers of a partial sum of the exponential series at the
imaginary unit stay near the unit circle. -/
namespace AnyKvm
namespace SineBounds
open Finset

def unitPower : ℕ → GaussianInt
  | 0 => 1
  | n + 1 => ⟨0,1⟩ * unitPower n

/-- The partial sum up to the term with index `n`, times `n!`. -/
def partialSum : ℕ → GaussianInt
  | 0 => 1
  | n + 1 => (n + 1 : ℕ) * partialSum n + unitPower (n + 1)

theorem unitPower_toComplex (n : ℕ) : (unitPower n : ℂ) = Complex.I ^ n := by
  induction n with
  | zero => exact GaussianInt.toComplex_one
  | succ n ih => rw [unitPower,GaussianInt.toComplex_mul,ih,pow_succ',GaussianInt.toComplex_def']; simp

theorem partialSum_toComplex (n : ℕ) :
    (partialSum n : ℂ) / n.factorial = ∑ m ∈ range (n + 1), Complex.I ^ m / m.factorial := by
  induction n with
  | zero => simp [partialSum]
  | succ n ih =>
    have hn : (n.factorial : ℂ) ≠ 0 := Nat.cast_ne_zero.mpr n.factorial_ne_zero
    have hsucc : ((n : ℂ) + 1) ≠ 0 := by exact_mod_cast n.succ_ne_zero
    rw [sum_range_succ,← ih,partialSum,GaussianInt.toComplex_add,GaussianInt.toComplex_mul,unitPower_toComplex,
      Nat.factorial_succ,map_natCast]
    push_cast
    field_simp

/-- How far the partial sum may be from the exponential. -/
noncomputable def radius (n : ℕ) : ℝ := (n + 2) / ((n + 1).factorial * (n + 1))

theorem exp_near (n : ℕ) : ‖Complex.exp Complex.I - (partialSum n : ℂ) / n.factorial‖ ≤ radius n := by
  rw [partialSum_toComplex]
  refine (Complex.exp_bound (le_of_eq Complex.norm_I) n.succ_pos).trans (le_of_eq ?_)
  rw [Complex.norm_I,one_pow,one_mul,radius]
  push_cast
  rw [div_eq_mul_inv,add_assoc]
  norm_num

theorem radius_le_one {n : ℕ} (hn : 0 < n) : radius n ≤ 1 := by
  have hfactorial : 2 ≤ (n + 1).factorial := by
    calc 2 = Nat.factorial 2 := rfl
      _ ≤ (n + 1).factorial := Nat.factorial_le (by omega)
  have hbound : n + 2 ≤ (n + 1).factorial * (n + 1) := by nlinarith
  rw [radius,div_le_one (by positivity)]
  exact_mod_cast hbound

theorem norm_pow_sub_pow_le {z w : ℂ} (hz : ‖z‖ ≤ 1) (hw : ‖w‖ ≤ 2) (k : ℕ) :
    ‖z ^ k - w ^ k‖ ≤ (2 ^ k - 1) * ‖z - w‖ := by
  induction k with
  | zero => simp
  | succ k ih =>
    have hsplit : z ^ (k + 1) - w ^ (k + 1) = z ^ k * (z - w) + (z ^ k - w ^ k) * w := by ring
    have hunit : ‖z ^ k‖ ≤ 1 := by
      rw [norm_pow]
      exact pow_le_one₀ (norm_nonneg z) hz
    have hfactor : 0 ≤ (2 ^ k - 1) * ‖z - w‖ := (norm_nonneg _).trans ih
    calc ‖z ^ (k + 1) - w ^ (k + 1)‖
        ≤ ‖z ^ k‖ * ‖z - w‖ + ‖z ^ k - w ^ k‖ * ‖w‖ := by
          rw [hsplit,← norm_mul,← norm_mul]
          exact norm_add_le _ _
      _ ≤ 1 * ‖z - w‖ + (2 ^ k - 1) * ‖z - w‖ * 2 := by gcongr
      _ = (2 ^ (k + 1) - 1) * ‖z - w‖ := by ring

/-- The sine of `k` from the `k`th power of the partial sum. -/
theorem sin_near {n : ℕ} (hn : 0 < n) (k : ℕ) :
    |Real.sin k - ((partialSum n ^ k).im : ℝ) / (n.factorial : ℝ) ^ k| ≤ (2 ^ k - 1) * radius n := by
  have hcircle : ‖Complex.exp Complex.I‖ = 1 := by simpa using Complex.norm_exp_ofReal_mul_I 1
  have hnear := exp_near n
  have hw : ‖(partialSum n : ℂ) / n.factorial‖ ≤ 2 := by
    calc ‖(partialSum n : ℂ) / n.factorial‖
        = ‖Complex.exp Complex.I - (Complex.exp Complex.I - (partialSum n : ℂ) / n.factorial)‖ := by
          rw [sub_sub_cancel]
      _ ≤ ‖Complex.exp Complex.I‖ + ‖Complex.exp Complex.I - (partialSum n : ℂ) / n.factorial‖ := norm_sub_le _ _
      _ ≤ 1 + 1 := by
          rw [hcircle]
          gcongr
          exact hnear.trans (radius_le_one hn)
      _ = 2 := by norm_num
  have hsin : (Complex.exp Complex.I ^ k).im = Real.sin k := by
    rw [← Complex.exp_nat_mul]
    exact_mod_cast Complex.exp_ofReal_mul_I_im k
  have him : (((partialSum n : ℂ) / n.factorial) ^ k).im = ((partialSum n ^ k).im : ℝ) / (n.factorial : ℝ) ^ k := by
    have hreal : (n.factorial : ℂ) ^ k = (((n.factorial : ℝ) ^ k : ℝ) : ℂ) := by push_cast; rfl
    rw [div_pow,← map_pow,hreal,Complex.div_ofReal_im,← GaussianInt.intCast_im]
  have hpow := norm_pow_sub_pow_le hcircle.le hw k
  have hone : (1 : ℝ) ≤ 2 ^ k := one_le_pow₀ one_le_two
  calc |Real.sin k - ((partialSum n ^ k).im : ℝ) / (n.factorial : ℝ) ^ k|
      = |(Complex.exp Complex.I ^ k - ((partialSum n : ℂ) / n.factorial) ^ k).im| := by
        rw [Complex.sub_im,hsin,him]
    _ ≤ ‖Complex.exp Complex.I ^ k - ((partialSum n : ℂ) / n.factorial) ^ k‖ := Complex.abs_im_le_norm _
    _ ≤ (2 ^ k - 1) * ‖Complex.exp Complex.I - (partialSum n : ℂ) / n.factorial‖ := hpow
    _ ≤ (2 ^ k - 1) * radius n := mul_le_mul_of_nonneg_left hnear (by linarith)

/-- The integer part of a multiple, from a quotient that is near: the quotient keeps 1/1024 from the next integers. -/
theorem floor_eq_of_near {x num den scale : ℝ} {t : ℕ} {error : ℝ} (hden : 0 < den) (hscale : 0 < scale)
    (hnear : |x - num / den| ≤ error) (herror : 1024 * (scale * error) < 1)
    (hlow : (t * 1024 + 1) * den ≤ scale * |num| * 1024)
    (hhigh : scale * |num| * 1024 ≤ ((t + 1) * 1024 - 1) * den) : ⌊scale * |x|⌋₊ = t := by
  have habs : |(|x| - |num| / den)| ≤ error := by
    have hdiv : |num| / den = |num / den| := by rw [abs_div,abs_of_pos hden]
    rw [hdiv]
    exact (abs_abs_sub_abs_le x (num / den)).trans hnear
  obtain ⟨hbelow,habove⟩ := abs_le.mp habs
  have hlow' : t * 1024 + 1 ≤ scale * (|num| / den) * 1024 := by
    have h := (le_div_iff₀ hden).mpr hlow
    calc (t * 1024 + 1 : ℝ) ≤ scale * |num| * 1024 / den := h
      _ = scale * (|num| / den) * 1024 := by ring
  have hhigh' : scale * (|num| / den) * 1024 ≤ (t + 1) * 1024 - 1 := by
    have h := (div_le_iff₀ hden).mpr hhigh
    calc scale * (|num| / den) * 1024 = scale * |num| * 1024 / den := by ring
      _ ≤ ((t + 1) * 1024 - 1 : ℝ) := h
  have hfrom : scale * (|num| / den - error) ≤ scale * |x| := by
    gcongr
    linarith
  have hto : scale * |x| ≤ scale * (|num| / den + error) := by
    gcongr
    linarith
  rw [Nat.floor_eq_iff (by positivity)]
  constructor <;> linarith

end SineBounds
end AnyKvm
