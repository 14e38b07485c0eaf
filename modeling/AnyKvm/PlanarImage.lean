import AnyKvm.PlaneBounds
import Mathlib.Data.Fin.Basic

/-! The planar 4:2:0 image that the conversions make: the places of its bytes, and what stands there. -/
namespace AnyKvm
namespace Colour

open Outcome Word

/-- A pixel of the brightness, or of one of the colours at half the resolution. -/
inductive Place (w h : ℕ)
  | y (row : Fin h) (col : Fin w)
  | u (row : Fin (h / 2)) (col : Fin (w / 2))
  | v (row : Fin (h / 2)) (col : Fin (w / 2))

namespace Place

variable {w h : ℕ}

/-- The planes stand one behind the other, and each row by row. -/
def index : Place w h → ℕ
  | y row col => row * w + col
  | u row col => w * h + (row * (w / 2) + col)
  | v row col => w * h + w / 2 * (h / 2) + (row * (w / 2) + col)

theorem row_col_inj {row col row' col' : ℕ} (hcol : col < w) (hcol' : col' < w)
    (h : row * w + col = row' * w + col') : row = row' ∧ col = col' := by
  obtain rfl : col = col' := by
    have hmod := congrArg (· % w) h
    simpa only [Nat.mul_add_mod',Nat.mod_eq_of_lt hcol,Nat.mod_eq_of_lt hcol'] using hmod
  exact ⟨Nat.eq_of_mul_eq_mul_right (Nat.zero_lt_of_lt hcol) (Nat.add_right_cancel h),rfl⟩

theorem row_col_surj {k : ℕ} (hk : k < w * h) : ∃ (row : Fin h) (col : Fin w), row * w + col = k := by
  have hw : 0 < w := Nat.pos_of_ne_zero fun hw => by simp [hw] at hk
  exact ⟨⟨k / w,Nat.div_lt_of_lt_mul hk⟩,⟨k % w,Nat.mod_lt k hw⟩,Nat.div_add_mod' k w⟩

theorem half_area (hw : w % 2 = 0) (hh : h % 2 = 0) : 4 * (w / 2 * (h / 2)) = w * h := by
  obtain ⟨a,rfl⟩ := Nat.dvd_of_mod_eq_zero hw
  obtain ⟨b,rfl⟩ := Nat.dvd_of_mod_eq_zero hh
  rw [Nat.mul_div_cancel_left a Nat.two_pos,Nat.mul_div_cancel_left b Nat.two_pos]
  ring

theorem quarter_area (hw : w % 2 = 0) (hh : h % 2 = 0) : w * h / 4 = w / 2 * (h / 2) := by
  have := half_area hw hh
  omega

theorem index_lt (hw : w % 2 = 0) (hh : h % 2 = 0) (p : Place w h) : p.index < w * h * 3 / 2 := by
  have hhalf := half_area hw hh
  cases p with
  | y row col =>
    have := row_col_lt row.isLt col.isLt
    rw [index]
    omega
  | u row col =>
    have := row_col_lt row.isLt col.isLt
    rw [index]
    omega
  | v row col =>
    have := row_col_lt row.isLt col.isLt
    rw [index]
    omega

theorem index_injective : Function.Injective (index : Place w h → ℕ) := by
  intro p q heq
  cases p with
  | y row col =>
    have hp := row_col_lt row.isLt col.isLt
    cases q with
    | y row' col' =>
      obtain ⟨hrow,hcol⟩ := row_col_inj col.isLt col'.isLt heq
      rw [Fin.ext hrow,Fin.ext hcol]
    | u row' col' =>
      simp only [index] at heq
      omega
    | v row' col' =>
      simp only [index] at heq
      omega
  | u row col =>
    have hp := row_col_lt row.isLt col.isLt
    cases q with
    | y row' col' =>
      have hq := row_col_lt row'.isLt col'.isLt
      simp only [index] at heq
      omega
    | u row' col' =>
      obtain ⟨hrow,hcol⟩ := row_col_inj col.isLt col'.isLt (Nat.add_left_cancel heq)
      rw [Fin.ext hrow,Fin.ext hcol]
    | v row' col' =>
      simp only [index] at heq
      omega
  | v row col =>
    have hp := row_col_lt row.isLt col.isLt
    cases q with
    | y row' col' =>
      have hq := row_col_lt row'.isLt col'.isLt
      simp only [index] at heq
      omega
    | u row' col' =>
      have hq := row_col_lt row'.isLt col'.isLt
      simp only [index] at heq
      omega
    | v row' col' =>
      obtain ⟨hrow,hcol⟩ := row_col_inj col.isLt col'.isLt (Nat.add_left_cancel heq)
      rw [Fin.ext hrow,Fin.ext hcol]

/-- Every byte of an image has one place. -/
theorem index_existsUnique (hw : w % 2 = 0) (hh : h % 2 = 0) {k : ℕ} (hk : k < w * h * 3 / 2) :
    ∃! p : Place w h, p.index = k := by
  have hhalf := half_area hw hh
  have hexists : ∃ p : Place w h, p.index = k := by
    by_cases hy : k < w * h
    · obtain ⟨row,col,hindex⟩ := row_col_surj hy
      exact ⟨.y row col,hindex⟩
    by_cases hu : k - w * h < w / 2 * (h / 2)
    · obtain ⟨row,col,hindex⟩ := row_col_surj hu
      exact ⟨.u row col,by rw [index]; omega⟩
    · obtain ⟨row,col,hindex⟩ := row_col_surj (by omega : k - w * h - w / 2 * (h / 2) < w / 2 * (h / 2))
      exact ⟨.v row col,by rw [index]; omega⟩
  obtain ⟨p,hp⟩ := hexists
  exact ⟨p,hp,fun q hq => index_injective (hq.trans hp.symm)⟩

end Place

/-- A planar image: a byte for each place. -/
def IsI420 {w h : ℕ} (bytes : Bytes) (value : Place w h → UInt8) : Prop :=
  bytes.length = w * h * 3 / 2 ∧ ∀ p, bytes[p.index]? = some (value p)

section Painted
variable {w h : ℕ} {y : ℕ → ℕ → UInt8} {colours : ℕ → ℕ → UInt8 × UInt8}

def valueAt (y : ℕ → ℕ → UInt8) (colours : ℕ → ℕ → UInt8 × UInt8) : Place w h → UInt8
  | .y row col => y row col
  | .u row col => (colours (2 * row) (2 * col)).1
  | .v row col => (colours (2 * row) (2 * col)).2

variable (hw : w % 2 = 0) (hh : h % 2 = 0)
include hw hh

theorem planesFit_of_even : PlanesFit w h := by
  intro row hrow col hcol
  have hrow := mem_evens.mp hrow
  have hcol := mem_evens.mp hcol
  have hlt := row_col_lt (by omega : row / 2 < h / 2) (by omega : col / 2 < w / 2)
  have hhalf := Place.half_area hw hh
  rw [chromaIndex]
  omega

theorem stroke_place {s : Stroke} (hs : s ∈ lumaStrokes w h y ++ chromaStrokes w h colours) :
    ∃ p : Place w h, s.index = p.index ∧ s.byte = valueAt y colours p := by
  rcases List.mem_append.mp hs with hs | hs
  · obtain ⟨row,hrow,col,hcol,rfl⟩ := mem_lumaStrokes.mp hs
    exact ⟨.y ⟨row,hrow⟩ ⟨col,hcol⟩,rfl,rfl⟩
  · obtain ⟨row,hrow,col,hcol,hstroke⟩ := mem_chromaStrokes.mp hs
    obtain ⟨hrow,hreven⟩ := mem_evens.mp hrow
    obtain ⟨hcol,hceven⟩ := mem_evens.mp hcol
    obtain ⟨i,rfl⟩ := Nat.dvd_of_mod_eq_zero hreven
    obtain ⟨j,rfl⟩ := Nat.dvd_of_mod_eq_zero hceven
    have hindex : chromaIndex w (2 * i) (2 * j) = i * (w / 2) + j := by
      rw [chromaIndex,Nat.mul_div_cancel_left i Nat.two_pos,Nat.mul_div_cancel_left j Nat.two_pos]
    rcases hstroke with rfl | rfl
    · refine ⟨.u ⟨i,by omega⟩ ⟨j,by omega⟩,?_,rfl⟩
      rw [hindex]
      rfl
    · refine ⟨.v ⟨i,by omega⟩ ⟨j,by omega⟩,?_,rfl⟩
      rw [hindex,Place.quarter_area hw hh]
      rfl

theorem place_stroked (p : Place w h) :
    p.index ∈ (lumaStrokes w h y ++ chromaStrokes w h colours).map Stroke.index := by
  rw [List.mem_map]
  cases p with
  | y row col =>
    exact ⟨_,List.mem_append_left _ (mem_lumaStrokes.mpr ⟨row,row.isLt,col,col.isLt,rfl⟩),rfl⟩
  | u row col =>
    refine ⟨_,List.mem_append_right _ (mem_chromaStrokes.mpr ⟨2 * row,mem_evens.mpr (by omega),2 * col,
      mem_evens.mpr (by omega),.inl rfl⟩),?_⟩
    rw [Place.index,chromaIndex,Nat.mul_div_cancel_left _ Nat.two_pos,Nat.mul_div_cancel_left _ Nat.two_pos]
  | v row col =>
    refine ⟨_,List.mem_append_right _ (mem_chromaStrokes.mpr ⟨2 * row,mem_evens.mpr (by omega),2 * col,
      mem_evens.mpr (by omega),.inr rfl⟩),?_⟩
    rw [Place.index,chromaIndex,Nat.mul_div_cancel_left _ Nat.two_pos,Nat.mul_div_cancel_left _ Nat.two_pos,
      Place.quarter_area hw hh]

theorem planar_isI420 {W : Word} (hfits : W.Fits (w * h * 3)) {uv : ℕ → ℕ → Outcome Fault (UInt8 × UInt8)}
    (hreads : ∀ row ∈ evens h, ∀ col ∈ evens w, uv row col = .ok (colours row col)) :
    ∃ c, planar W w h y uv = .ok c ∧ IsI420 c.yuv (valueAt (w := w) (h := h) y colours) := by
  refine ⟨(Canvas.zeros (w * h * 3 / 2)).painted (lumaStrokes w h y ++ chromaStrokes w h colours),?_,?_,fun p => ?_⟩
  · rw [planar_eq_paint hfits hreads,Canvas.paint_eq,Canvas.length_zeros,
      if_pos (strokes_within (planesFit_of_even hw hh))]
  · rw [Canvas.length_painted,Canvas.length_zeros]
  · refine Canvas.getElem?_painted ?_ ?_ (.inr (place_stroked hw hh p))
    · rw [Canvas.length_zeros]
      exact p.index_lt hw hh
    · intro s hs hindex
      obtain ⟨q,hq,hbyte⟩ := stroke_place hw hh hs
      rw [hbyte,Place.index_injective (hq.symm.trans hindex)]

end Painted

section Colours
variable (p : Rgb)

theorem shiftRight_eight (x : ℤ) : x >>> (8 : ℕ) = x / 256 := Int.shiftRight_eq_div_pow x 8

theorem clamp_of_mem {x : ℤ} (hlow : 0 ≤ x) (hhigh : x ≤ 255) : ((clamp x).toNat : ℤ) = x := by
  rw [clamp,max_eq_left hlow,min_eq_left hhigh,UInt8.toNat_ofNat_of_lt' (by change x.toNat < 256; omega),
    Int.toNat_of_nonneg hlow]

/-- No colour is out of range, so the clamp changes nothing. -/
theorem clamp_y : ((clamp p.y).toNat : ℤ) = p.y := by
  have hr := p.r.toNat_lt
  have hg := p.g.toNat_lt
  have hb := p.b.toNat_lt
  have hy : p.y = (66 * p.r.toNat + 129 * p.g.toNat + 25 * p.b.toNat + 128) / 256 + 16 := by
    rw [Rgb.y,shiftRight_eight]
  apply clamp_of_mem <;> omega

theorem clamp_u : ((clamp p.u).toNat : ℤ) = p.u := by
  have hr := p.r.toNat_lt
  have hg := p.g.toNat_lt
  have hb := p.b.toNat_lt
  have hu : p.u = (-38 * p.r.toNat - 74 * p.g.toNat + 112 * p.b.toNat + 128) / 256 + 128 := by
    rw [Rgb.u,shiftRight_eight]
  apply clamp_of_mem <;> omega

theorem clamp_v : ((clamp p.v).toNat : ℤ) = p.v := by
  have hr := p.r.toNat_lt
  have hg := p.g.toNat_lt
  have hb := p.b.toNat_lt
  have hv : p.v = (112 * p.r.toNat - 94 * p.g.toNat - 18 * p.b.toNat + 128) / 256 + 128 := by
    rw [Rgb.v,shiftRight_eight]
  apply clamp_of_mem <;> omega

end Colours

section Layout
variable {w h : ℕ}

/-- The byte of YUYV that is meant for a place: one of brightness for each pixel, and two colours for each two. -/
def Place.yuyvIndex : Place w h → ℕ
  | .y row col => 2 * (row * w + col)
  | .u row col => 2 * (2 * row * w + 2 * col) + 1
  | .v row col => 2 * (2 * row * w + 2 * col) + 3

/-- The colours of a picture at each place, as whole numbers. -/
def pictureValue (picture : Picture) : Place w h → ℤ
  | .y row col => (picture row col).y
  | .u row col => (picture (2 * row) (2 * col)).u
  | .v row col => (picture (2 * row) (2 * col)).v

theorem yuyvIndex_lt {src : Bytes} (hw : w % 2 = 0) (hlength : 2 * (w * h) ≤ src.length)
    (p : Place w h) : p.yuyvIndex < src.length := by
  have hreads := chromaReads_of hlength (.inl hw)
  cases p with
  | y row col =>
    have := row_col_lt row.isLt col.isLt
    rw [Place.yuyvIndex]
    omega
  | u row col =>
    have := hreads (2 * row) (mem_evens.mpr (by omega)) (2 * col) (mem_evens.mpr (by omega))
    rw [Place.yuyvIndex]
    omega
  | v row col => exact hreads (2 * row) (mem_evens.mpr (by omega)) (2 * col) (mem_evens.mpr (by omega))

theorem yuyv_isI420 {W : Word} (hw : w % 2 = 0) (hh : h % 2 = 0) {src : Bytes} (hholds : W.Holds src.length)
    (hlength : 2 * (w * h) ≤ src.length) : ∃ c, yuyvToYuv420 W src w h = .ok c ∧
      c.yuv.length = w * h * 3 / 2 ∧ ∀ p : Place w h, c.yuv[p.index]? = src[p.yuyvIndex]? := by
  have hfits : W.Fits (w * h * 3) := Fits.mono hholds (by omega)
  have hreads := chromaReads_of hlength (.inl hw)
  rw [yuyvToYuv420_eq hholds hlength]
  obtain ⟨c,hc,hcount,hvalue⟩ := planar_isI420 (y := yuyvY src w) hw hh hfits fun row hrow col hcol =>
    yuyvUv_eq_ok (hreads row hrow col hcol)
  refine ⟨c,hc,hcount,fun p => ?_⟩
  have hbyte : src[p.yuyvIndex]? = some (src.getD p.yuyvIndex 0) :=
    index_eq_ok.mp (index_of_lt (ε := Empty) (yuyvIndex_lt hw hlength p))
  rw [hvalue,hbyte]
  cases p <;> rfl

theorem bgra_isI420 {W : Word} (hw : w % 2 = 0) (hh : h % 2 = 0) (himage : W.Holds (w * h * 3 / 2))
    {frame : Bytes} {stride srcW srcH : ℕ} (hsource : BgraSource W frame stride srcW srcH) :
    ∃ c, bgraToYuv420 W frame stride srcW srcH w h = .ok c ∧ c.yuv.length = w * h * 3 / 2 ∧
      ∀ p : Place w h, ∃ byte, c.yuv[p.index]? = some byte ∧ (byte.toNat : ℤ) = pictureValue
        (fun row col => bgraAt frame stride (nearest W srcH h row) (nearest W srcW w col)) p := by
  have hhalf := Place.half_area hw hh
  have hfits : W.Fits (w * h * 3) := Fits.mono himage (by omega)
  rw [bgraToYuv420_eq hsource]
  obtain ⟨c,hc,hcount,hvalue⟩ := planar_isI420 hw hh hfits fun _ _ _ _ => rfl
  refine ⟨c,hc,hcount,fun p => ⟨_,hvalue p,?_⟩⟩
  cases p with
  | y row col => exact clamp_y _
  | u row col => exact clamp_u _
  | v row col => exact clamp_v _

/-- With even sides, a conversion of YUYV or of a screen capture is the planar image of its source, and each
byte of the image has one place. The image must be one that a vector can hold. -/
theorem i420_layout {W : Word} (hw : w % 2 = 0) (hh : h % 2 = 0) :
    (∀ src : Bytes, W.Holds src.length → 2 * (w * h) ≤ src.length →
      ∃ c, yuyvToYuv420 W src w h = .ok c ∧ c.yuv.length = w * h * 3 / 2 ∧
        ∀ p : Place w h, c.yuv[p.index]? = src[p.yuyvIndex]?) ∧
    (W.Holds (w * h * 3 / 2) → ∀ frame stride srcW srcH, BgraSource W frame stride srcW srcH →
      ∃ c, bgraToYuv420 W frame stride srcW srcH w h = .ok c ∧ c.yuv.length = w * h * 3 / 2 ∧
        ∀ p : Place w h, ∃ byte, c.yuv[p.index]? = some byte ∧ (byte.toNat : ℤ) = pictureValue
          (fun row col => bgraAt frame stride (nearest W srcH h row) (nearest W srcW w col)) p) ∧
    ∀ k < w * h * 3 / 2, ∃! p : Place w h, p.index = k :=
  ⟨fun _ => yuyv_isI420 hw hh,fun himage _ _ _ _ => bgra_isI420 hw hh himage,
    fun _ => Place.index_existsUnique hw hh⟩

/-- Four pixels of YUYV; and two pixels of a screen, a red and a violet one, scaled to four. -/
theorem i420_layout_two_by_two :
    (∃ c, yuyvToYuv420 armv7 [16,100,40,200,70,110,235,220] 2 2 = .ok c ∧ c.yuv = [16,40,70,235,100,200] ∧
      ∀ p : Place 2 2, c.yuv[p.index]? = ([16,100,40,200,70,110,235,220] : Bytes)[p.yuyvIndex]?) ∧
    ∃ c, bgraToYuv420 armv7 [10,20,200,0,255,0,128,0] 8 2 1 2 2 = .ok c ∧ c.yuv = [79,74,79,74,97,207] ∧
      ∀ p : Place 2 2, ∃ byte, c.yuv[p.index]? = some byte ∧ (byte.toNat : ℤ) = pictureValue (fun row col =>
        bgraAt [10,20,200,0,255,0,128,0] 8 (nearest armv7 1 2 row) (nearest armv7 2 2 col)) p := by
  have h := i420_layout (W := armv7) (w := 2) (h := 2) rfl rfl
  obtain ⟨c,hc,-,hplaces⟩ := h.1 [16,100,40,200,70,110,235,220] (by decide) (by decide)
  obtain ⟨d,hd,-,hcolours⟩ := h.2.1 (by decide) [10,20,200,0,255,0,128,0] 8 2 1
    ⟨by decide,by decide,by decide,by decide,by decide⟩
  have hyuyv : ∃ c, yuyvToYuv420 armv7 [16,100,40,200,70,110,235,220] 2 2 = .ok c ∧
      c.yuv = [16,40,70,235,100,200] := ⟨_,rfl,by decide⟩
  have hbgra : ∃ d, bgraToYuv420 armv7 [10,20,200,0,255,0,128,0] 8 2 1 2 2 = .ok d ∧
      d.yuv = [79,74,79,74,97,207] := ⟨_,rfl,by decide⟩
  obtain ⟨c',hc',hbytes⟩ := hyuyv
  obtain ⟨d',hd',hscaled⟩ := hbgra
  cases Outcome.ok.inj (hc.symm.trans hc')
  cases Outcome.ok.inj (hd.symm.trans hd')
  exact ⟨⟨c,hc,hbytes,hplaces⟩,d,hd,hscaled,hcolours⟩

end Layout

end Colour
end AnyKvm
