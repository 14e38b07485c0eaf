import AnyKvm.PlanarForm
import Mathlib.Algebra.Ring.Parity
import Mathlib.Tactic.Ring

/-! Which sizes the conversions can make.
The buffer has room for `w * h / 4` bytes in a plane of the colours, and the loops write to `(w + 1) / 2` times
`(h + 1) / 2` pixels with rows of `w / 2` bytes: these are the same only where both sides are even. -/
namespace AnyKvm
namespace Colour

open Outcome Word

/-- A conversion has kept to its buffers, to the words of the machine, and with the colours to their planes. -/
def InBounds (frameSize : ℕ) : Outcome Fault Canvas → Prop
  | .ok yuv => ∀ m ∈ yuv.marks,
    (m.1 = .u → m.2 < frameSize + frameSize / 4) ∧ (m.1 = .v → frameSize + frameSize / 4 ≤ m.2)
  | .err .overflow => False
  | .err (.failed _) => True
  | .panicked => False

instance (frameSize : ℕ) (x : Outcome Fault Canvas) : Decidable (InBounds frameSize x) :=
  match x with
  | .ok yuv => inferInstanceAs (Decidable (∀ m ∈ yuv.marks,
    (m.1 = .u → m.2 < frameSize + frameSize / 4) ∧ (m.1 = .v → frameSize + frameSize / 4 ≤ m.2)))
  | .err .overflow => isFalse id
  | .err (.failed _) => isTrue trivial
  | .panicked => isFalse id

/-- The sizes at which a plane of the colours has room for what is written to it. -/
def SizeFits (w h : ℕ) : Prop :=
  (w % 2 = 0 ∧ h % 2 = 0) ∨ (w % 2 = 1 ∧ h % 2 = 0 ∧ 4 ≤ h) ∨ (w % 2 = 1 ∧ h % 2 = 1 ∧ w + 4 ≤ h)

def PlanesFit (w h : ℕ) : Prop := ∀ row ∈ evens h, ∀ col ∈ evens w, chromaIndex w row col < w * h / 4

section Sizes
variable {w h : ℕ}

theorem planesFit_iff_last (hw : 1 ≤ w) (hh : 1 ≤ h) :
    PlanesFit w h ↔ (h - 1) / 2 * (w / 2) + (w - 1) / 2 < w * h / 4 := by
  constructor
  · intro hfit
    have hlast := hfit (2 * ((h - 1) / 2)) (mem_evens.mpr (by omega)) (2 * ((w - 1) / 2)) (mem_evens.mpr (by omega))
    unfold chromaIndex at hlast
    rwa [Nat.mul_div_cancel_left _ Nat.two_pos,Nat.mul_div_cancel_left _ Nat.two_pos] at hlast
  · intro hlast row hrow col hcol
    refine Nat.lt_of_le_of_lt (Nat.add_le_add (Nat.mul_le_mul_right _ ?_) ?_) hlast
    · have := (mem_evens.mp hrow).1
      omega
    · have := (mem_evens.mp hcol).1
      omega

theorem planesFit_iff (hw : 1 ≤ w) (hh : 1 ≤ h) : PlanesFit w h ↔ SizeFits w h := by
  rw [planesFit_iff_last hw hh]
  unfold SizeFits
  obtain ⟨a,rfl | rfl⟩ := Nat.even_or_odd' w
  · obtain ⟨a,rfl⟩ : ∃ a', a = a' + 1 := ⟨a - 1,by omega⟩
    have hwidth : 2 * (a + 1) / 2 = a + 1 := by omega
    have hlast : (2 * (a + 1) - 1) / 2 = a := by omega
    obtain ⟨b,rfl | rfl⟩ := Nat.even_or_odd' h
    · obtain ⟨b,rfl⟩ : ∃ b', b = b' + 1 := ⟨b - 1,by omega⟩
      have hrows : (2 * (b + 1) - 1) / 2 = b := by omega
      have hindex : b * (a + 1) = b * a + b := by ring
      have hsize : 2 * (a + 1) * (2 * (b + 1)) = 4 * (b * a + a + b + 1) := by ring
      rw [hwidth,hlast,hrows,hindex,hsize]
      omega
    · have hrows : (2 * b + 1 - 1) / 2 = b := by omega
      have hindex : b * (a + 1) = b * a + b := by ring
      have hsize : 2 * (a + 1) * (2 * b + 1) = 4 * (b * a) + 4 * b + 2 * a + 2 := by ring
      rw [hwidth,hlast,hrows,hindex,hsize]
      omega
  · have hwidth : (2 * a + 1) / 2 = a := by omega
    have hlast : (2 * a + 1 - 1) / 2 = a := by omega
    obtain ⟨b,rfl | rfl⟩ := Nat.even_or_odd' h
    · obtain ⟨b,rfl⟩ : ∃ b', b = b' + 1 := ⟨b - 1,by omega⟩
      have hrows : (2 * (b + 1) - 1) / 2 = b := by omega
      have hsize : (2 * a + 1) * (2 * (b + 1)) = 4 * (b * a) + 4 * a + 2 * b + 2 := by ring
      rw [hwidth,hlast,hrows,hsize]
      omega
    · have hrows : (2 * b + 1 - 1) / 2 = b := by omega
      have hsize : (2 * a + 1) * (2 * b + 1) = 4 * (b * a) + 2 * a + 2 * b + 1 := by ring
      rw [hwidth,hlast,hrows,hsize]
      omega

end Sizes

section Paint
variable {W : Word} {w h : ℕ} {y : ℕ → ℕ → UInt8} {colours : ℕ → ℕ → UInt8 × UInt8}

theorem strokes_within (hfit : PlanesFit w h) :
    Canvas.Within (w * h * 3 / 2) (lumaStrokes w h y ++ chromaStrokes w h colours) := by
  intro s hs
  rcases List.mem_append.mp hs with hs | hs
  · obtain ⟨row,hrow,col,hcol,rfl⟩ := mem_lumaStrokes.mp hs
    have hlt := row_col_lt hrow hcol
    dsimp only
    omega
  · obtain ⟨row,hrow,col,hcol,rfl | rfl⟩ := mem_chromaStrokes.mp hs
    all_goals
      have hlt := hfit row hrow col hcol
      dsimp only
      omega

/-- The strokes of a picture are in bounds exactly if its planes have room for the colours. -/
theorem paint_inBounds_iff : InBounds (w * h)
    ((Canvas.zeros (w * h * 3 / 2)).paint (lumaStrokes w h y ++ chromaStrokes w h colours)) ↔ PlanesFit w h := by
  rw [Canvas.paint_eq,Canvas.length_zeros]
  constructor
  · intro hin row hrow col hcol
    by_cases hwithin : Canvas.Within (w * h * 3 / 2) (lumaStrokes w h y ++ chromaStrokes w h colours)
    · rw [if_pos hwithin] at hin
      have hu : (⟨.u,w * h + chromaIndex w row col,(colours row col).1⟩ : Stroke) ∈
          lumaStrokes w h y ++ chromaStrokes w h colours :=
        List.mem_append_right _ (mem_chromaStrokes.mpr ⟨row,hrow,col,hcol,.inl rfl⟩)
      have := (hin _ (Canvas.mem_marks_painted.mpr (.inr (List.mem_map_of_mem hu)))).1 rfl
      dsimp only [Stroke.mark] at this
      omega
    · rw [if_neg hwithin] at hin
      exact hin.elim
  · intro hfit
    rw [if_pos (strokes_within hfit)]
    intro m hm
    obtain ⟨s,hs,rfl⟩ := List.mem_map.mp ((Canvas.mem_marks_painted.mp hm).resolve_left List.not_mem_nil)
    rcases List.mem_append.mp hs with hs | hs
    · obtain ⟨row,hrow,col,hcol,rfl⟩ := mem_lumaStrokes.mp hs
      exact ⟨nofun,nofun⟩
    · obtain ⟨row,hrow,col,hcol,rfl | rfl⟩ := mem_chromaStrokes.mp hs
      · refine ⟨fun _ => ?_,nofun⟩
        have := hfit row hrow col hcol
        dsimp only [Stroke.mark]
        omega
      · exact ⟨nofun,fun _ => Nat.le_add_right _ _⟩

/-- The size of a buffer is checked before anything is written. -/
theorem size_overflow (hchecked : W.checked = true) (hfits : ¬ W.Fits (w * h * 3))
    (k : ℕ → Canvas → Outcome Fault Canvas) :
    (do let frameSize ← W.mul w h
        let yuv ← newYuv W frameSize
        k frameSize yuv) = .err .overflow := by
  by_cases hsize : W.Fits (w * h)
  · have hbuffer : W.mul (w * h) 3 = .err .overflow := carry_of_not_fits hchecked hfits
    rw [mul_of_fits hsize,ok_bind,newYuv,hbuffer]
    rfl
  · have hframe : W.mul w h = .err .overflow := carry_of_not_fits hchecked hsize
    rw [hframe]
    rfl

theorem planarOf_inBounds_iff (hchecked : W.checked = true) (hw : 1 ≤ w) (hh : 1 ≤ h) (picture : Picture) :
    InBounds (w * h) (planarOf W w h picture) ↔ W.Fits (w * h * 3) ∧ SizeFits w h := by
  by_cases hfits : W.Fits (w * h * 3)
  · rw [planarOf,planar_eq_paint hfits fun _ _ _ _ => rfl,paint_inBounds_iff,planesFit_iff hw hh,and_iff_right hfits]
  · refine iff_of_false ?_ fun h => hfits h.1
    rw [planarOf,planar,size_overflow hchecked hfits]
    exact id

end Paint

section Formats
variable {W : Word} {w h : ℕ} {decode : Bytes → Option Jpeg} {jpegData : Bytes} {info : Jpeg}

theorem eq_l16_of_unsupported {format : PixelFormat} {e : Fault} (h : bytesPerPixel format = .err e) : format = .l16 := by
  cases format with
  | l16 => rfl
  | _ => cases h

theorem mjpegToYuv420_inBounds_iff (hchecked : W.checked = true) (hdecode : decode jpegData = some info)
    (hholds : W.Holds info.pixels.length) (hw : 1 ≤ w) (hh : 1 ≤ h) :
    InBounds (w * h) (mjpegToYuv420 W decode jpegData w h) ↔
      W.Fits (w * h * 3) ∧ (info.pixelFormat = .l16 ∨ SizeFits w h) := by
  cases hformat : bytesPerPixel info.pixelFormat with
  | ok n =>
    have hnot : info.pixelFormat ≠ .l16 := fun hl => by rw [hl] at hformat; cases hformat
    rw [mjpegToYuv420_eq hformat hdecode hholds,planarOf_inBounds_iff hchecked hw hh,or_iff_right hnot]
  | err e =>
    have hl := eq_l16_of_unsupported hformat
    rw [mjpegToYuv420_unsupported hdecode hl,bind_bind]
    by_cases hfits : W.Fits (w * h * 3)
    · rw [mul_of_fits (hfits.mono (by omega)),ok_bind,newYuv_of_fits hfits,ok_bind]
      exact iff_of_true trivial ⟨hfits,.inl hl⟩
    · rw [size_overflow hchecked hfits]
      exact iff_of_false id fun h => hfits h.1
  | panicked => cases hf : info.pixelFormat <;> rw [hf] at hformat <;> cases hformat

end Formats

section Yuyv
variable {W : Word} {w h : ℕ} {src : Bytes}

/-- A loop with a pass that panics panics, if no pass returns an error. -/
theorem foldlM_panicked {ε σ α : Type} {xs : List α} {pass : σ → α → Outcome ε σ} {x : α} (hx : x ∈ xs)
    (hpass : ∀ s, pass s x = .panicked) (herr : ∀ y ∈ xs, ∀ s e, pass s y ≠ .err e) (s : σ) :
    xs.foldlM pass s = .panicked := by
  induction xs generalizing s with
  | nil => cases hx
  | cons y rest ih =>
    rw [List.foldlM_cons]
    cases hy : pass s y with
    | panicked => rfl
    | err e => exact absurd hy (herr y List.mem_cons_self s e)
    | ok t =>
      rcases List.mem_cons.mp hx with rfl | hx
      · rw [hpass] at hy
        cases hy
      · exact ih hx (fun z hz => herr z (List.mem_cons_of_mem y hz)) t

theorem foldlM_ne_err {ε σ α : Type} {xs : List α} {pass : σ → α → Outcome ε σ}
    (herr : ∀ y ∈ xs, ∀ s e, pass s y ≠ .err e) (s : σ) (e : ε) : xs.foldlM pass s ≠ .err e := by
  induction xs generalizing s with
  | nil => exact nofun
  | cons y rest ih =>
    rw [List.foldlM_cons]
    cases hy : pass s y with
    | panicked => exact nofun
    | err e => exact absurd hy (herr y List.mem_cons_self s e)
    | ok t => exact ih (fun z hz => herr z (List.mem_cons_of_mem y hz)) t

/-- The colours of a pixel are read from it and from the one on its right. -/
def ChromaReads (src : Bytes) (w h : ℕ) : Prop :=
  ∀ row ∈ evens h, ∀ col ∈ evens w, 2 * (row * w + col) + 3 < src.length

theorem chromaReads_of (hlength : 2 * (w * h) ≤ src.length)
    (hparity : w % 2 = 0 ∨ h % 2 = 0 ∨ 2 * (w * h) + 2 ≤ src.length) : ChromaReads src w h := by
  intro row hrow col hcol
  obtain ⟨hrow,hreven⟩ := mem_evens.mp hrow
  obtain ⟨hcol,hceven⟩ := mem_evens.mp hcol
  have hnext : row * w + col + 1 < w * h ∨ 2 * (w * h) + 2 ≤ src.length := by
    rcases hparity with hw | hh | hlong
    · exact .inl (row_col_lt hrow (by omega : col + 1 < w))
    · have hbelow := row_col_lt (by omega : row + 1 < h) (Nat.zero_lt_of_lt hcol)
      rw [Nat.succ_mul] at hbelow
      exact .inl (by omega)
    · exact .inr hlong
  have hlt := row_col_lt hrow hcol
  omega

theorem chromaReads_iff (hlength : 2 * (w * h) ≤ src.length) (hw : 1 ≤ w) (hh : 1 ≤ h) :
    ChromaReads src w h ↔ w % 2 = 0 ∨ h % 2 = 0 ∨ 2 * (w * h) + 2 ≤ src.length := by
  refine ⟨fun hreads => ?_,chromaReads_of hlength⟩
  by_contra hodd
  have hlast := hreads (h - 1) (mem_evens.mpr (by omega)) (w - 1) (mem_evens.mpr (by omega))
  have hindex : (h - 1) * w + w = w * h := by
    rw [← Nat.succ_mul,Nat.mul_comm w h]
    congr 1
    omega
  omega

theorem yuyvUv_eq_ok {row col : ℕ} (h : 2 * (row * w + col) + 3 < src.length) : yuyvUv src w row col =
    .ok (src.getD (2 * (row * w + col) + 1) 0,src.getD (2 * (row * w + col) + 3) 0) := by
  rw [yuyvUv,index_of_lt (by omega),ok_bind,index_of_lt h,ok_bind]

theorem yuyvUv_panicked {row col : ℕ} (h : src.length ≤ 2 * (row * w + col) + 3) :
    yuyvUv src w row col = .panicked := by
  unfold yuyvUv
  rw [bind_eq_panicked]
  by_cases hu : src.length ≤ 2 * (row * w + col) + 1
  · exact .inl (index_eq_panicked.mpr hu)
  · refine .inr ⟨_,index_of_lt (Nat.not_le.mp hu),?_⟩
    rw [index_eq_panicked.mpr h]
    rfl

theorem yuyvPass_ne_err {row col : ℕ} (yuv : Canvas) (e : Fault) :
    (yuyvUv src w row col >>= fun c => yuv.paint (chromaStroke w h row col c)) ≠ .err e := by
  by_cases hread : 2 * (row * w + col) + 3 < src.length
  · rw [yuyvUv_eq_ok hread,ok_bind,Canvas.paint_eq]
    split <;> nofun
  · rw [yuyvUv_panicked (Nat.not_lt.mp hread)]
    nofun

theorem yuyv_panicked (hfits : W.Fits (w * h * 3)) (y : ℕ → ℕ → UInt8) (hreads : ¬ ChromaReads src w h) :
    planar W w h y (yuyvUv src w) = .panicked := by
  rw [planar_eq_reads hfits,Canvas.paint_eq]
  by_cases hluma : Canvas.Within (Canvas.zeros (w * h * 3 / 2)).yuv.length (lumaStrokes w h y)
  · rw [if_pos hluma,ok_bind]
    simp only [ChromaReads,not_forall,Nat.not_lt] at hreads
    obtain ⟨row,hrow,col,hcol,hout⟩ := hreads
    have hpass : ∀ row (yuv : Canvas) e, (evens w).foldlM (fun yuv col => yuyvUv src w row col >>= fun c =>
        yuv.paint (chromaStroke w h row col c)) yuv ≠ .err e :=
      fun row yuv e => foldlM_ne_err (fun col _ yuv e => yuyvPass_ne_err yuv e) yuv e
    refine foldlM_panicked hrow (fun yuv => ?_) (fun row _ yuv e => hpass row yuv e) _
    refine foldlM_panicked hcol (fun yuv => ?_) (fun col _ yuv e => yuyvPass_ne_err yuv e) yuv
    rw [yuyvUv_panicked hout]
    rfl
  · rw [if_neg hluma]
    rfl

theorem yuyvToYuv420_inBounds_iff (hholds : W.Holds src.length) (hlength : 2 * (w * h) ≤ src.length)
    (hw : 1 ≤ w) (hh : 1 ≤ h) : InBounds (w * h) (yuyvToYuv420 W src w h) ↔
      SizeFits w h ∧ (w % 2 = 0 ∨ h % 2 = 0 ∨ 2 * (w * h) + 2 ≤ src.length) := by
  have hfits : W.Fits (w * h * 3) := Fits.mono hholds (by omega)
  rw [yuyvToYuv420_eq hholds hlength,← chromaReads_iff hlength hw hh]
  by_cases hreads : ChromaReads src w h
  · rw [planar_eq_paint hfits fun row hrow col hcol => yuyvUv_eq_ok (hreads row hrow col hcol),paint_inBounds_iff,
      planesFit_iff hw hh,and_iff_left hreads]
  · rw [yuyv_panicked hfits _ hreads]
    exact iff_of_false id fun h => hreads h.2

end Yuyv

/-- The 32-bit target, with overflow as a fault. -/
def armv7 : Word := ⟨some 32,true⟩

theorem armv7_fits {a : ℕ} : armv7.Fits a ↔ a < 2 ^ 32 := by
  simp [Fits,armv7]

inductive Conversion
  | bgra (frame : Bytes) (stride srcW srcH : ℕ)
  | mjpeg (jpegData : Bytes)
  | yuyv (src : Bytes)

namespace Conversion

variable (decode : Bytes → Option Jpeg) (w h : ℕ)

def run (W : Word) : Conversion → Outcome Fault Canvas
  | bgra frame stride srcW srcH => bgraToYuv420 W frame stride srcW srcH w h
  | mjpeg jpegData => mjpegToYuv420 W decode jpegData w h
  | yuyv src => yuyvToYuv420 W src w h

/-- The source has the bytes that it should have, and is no longer than a slice can be. -/
def Valid (W : Word) : Conversion → Prop
  | bgra frame stride srcW srcH => BgraSource W frame stride srcW srcH
  | mjpeg jpegData => ∀ info, decode jpegData = some info → W.Holds info.pixels.length
  | yuyv src => W.Holds src.length ∧ 2 * (w * h) ≤ src.length

def SizeOk : Conversion → Prop
  | bgra _ _ _ _ => w * h * 3 < 2 ^ 32 ∧ SizeFits w h
  | mjpeg jpegData => ∀ info, decode jpegData = some info →
    w * h * 3 < 2 ^ 32 ∧ (info.pixelFormat = .l16 ∨ SizeFits w h)
  | yuyv src => SizeFits w h ∧ (w % 2 = 0 ∨ h % 2 = 0 ∨ 2 * (w * h) + 2 ≤ src.length)

variable {decode w h}

/-- A conversion is in bounds exactly at the sizes that it can make. -/
theorem inBounds_iff (c : Conversion) (hw : 1 ≤ w) (hh : 1 ≤ h) (hvalid : c.Valid decode w h armv7) :
    InBounds (w * h) (c.run decode w h armv7) ↔ c.SizeOk decode w h := by
  cases c with
  | bgra frame stride srcW srcH =>
    rw [run,bgraToYuv420_eq hvalid,planarOf_inBounds_iff rfl hw hh,armv7_fits]
    rfl
  | mjpeg jpegData =>
    cases hdecode : decode jpegData with
    | none =>
      rw [run,mjpegToYuv420,hdecode]
      exact iff_of_true trivial fun info hinfo => nomatch hdecode.symm.trans hinfo
    | some info =>
      have hok : SizeOk decode w h (mjpeg jpegData) ↔
          w * h * 3 < 2 ^ 32 ∧ (info.pixelFormat = .l16 ∨ SizeFits w h) :=
        ⟨fun h => h info hdecode,fun h info' hinfo' => Option.some.inj (hdecode.symm.trans hinfo') ▸ h⟩
      rw [hok,← armv7_fits]
      exact mjpegToYuv420_inBounds_iff rfl hdecode (hvalid info hdecode) hw hh
  | yuyv src => exact yuyvToYuv420_inBounds_iff hvalid.1 hvalid.2 hw hh

/-- A picture of two by two pixels from a frame of one pixel. -/
theorem inBounds_iff_two_by_two : InBounds 4 ((bgra [0,0,0,0] 4 1 1).run (fun _ => none) 2 2 armv7) ↔
    (bgra [0,0,0,0] 4 1 1).SizeOk (fun _ => none) 2 2 :=
  inBounds_iff (w := 2) (h := 2) (bgra [0,0,0,0] 4 1 1) (by decide) (by decide)
    ⟨by decide,by decide,by decide,by decide,by decide⟩

/-- The buffer of a picture of one pixel has one byte, and its colours are written behind that. -/
theorem one_pixel_panics : (bgra [0,0,0,0] 4 1 1).Valid (fun _ => none) 1 1 armv7 ∧
    ¬ InBounds 1 ((bgra [0,0,0,0] 4 1 1).run (fun _ => none) 1 1 armv7) :=
  ⟨⟨by decide,by decide,by decide,by decide,by decide⟩,by decide⟩

end Conversion

end Colour
end AnyKvm
