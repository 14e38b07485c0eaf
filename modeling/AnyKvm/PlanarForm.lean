import AnyKvm.ColourConversion

/-! The conversions with everything that is particular to a format taken out: the bytes of the planes are
functions of the row and the column, and what is left are the buffer and the places in it. -/
namespace AnyKvm
namespace Colour

open Outcome Word

theorem foldlM_congr_mem {ε σ α : Type} {xs : List α} {f g : σ → α → Outcome ε σ}
    (h : ∀ x ∈ xs, ∀ s, f s x = g s x) (s : σ) : xs.foldlM f s = xs.foldlM g s := by
  induction xs generalizing s with
  | nil => rfl
  | cons x rest ih =>
    rw [List.foldlM_cons,List.foldlM_cons,h x List.mem_cons_self]
    exact congrArg (_ >>= ·) (funext fun t => ih (fun y hy => h y (List.mem_cons_of_mem x hy)) t)

theorem mem_evens {n d : ℕ} : d ∈ evens n ↔ d < n ∧ d % 2 = 0 := by
  simp only [evens,List.mem_map,List.mem_range]
  constructor
  · rintro ⟨i,hi,rfl⟩
    omega
  · rintro ⟨hd,heven⟩
    exact ⟨d / 2,by omega,by omega⟩

abbrev Picture := ℕ → ℕ → Rgb

section Planar
variable (W : Word)

def lumaLoop (w h : ℕ) (y : ℕ → ℕ → UInt8) (yuv : Canvas) : Outcome Fault Canvas :=
  (List.range h).foldlM (fun yuv row =>
    (List.range w).foldlM (fun yuv col => do
      yuv.write .y (← W.add (← W.mul row w) col) (y row col)) yuv) yuv

/-- The read of the colours may panic. -/
def chromaLoop (frameSize w h : ℕ) (uv : ℕ → ℕ → Outcome Fault (UInt8 × UInt8)) (yuv : Canvas) :
    Outcome Fault Canvas :=
  (evens h).foldlM (fun yuv row =>
    (evens w).foldlM (fun yuv col => do
      let c ← uv row col
      let idx ← W.add (← W.mul (row / 2) (w / 2)) (col / 2)
      let yuv ← yuv.write .u (← W.add frameSize idx) c.1
      yuv.write .v (← W.add (← W.add frameSize (frameSize / 4)) idx) c.2) yuv) yuv

def planar (w h : ℕ) (y : ℕ → ℕ → UInt8) (uv : ℕ → ℕ → Outcome Fault (UInt8 × UInt8)) : Outcome Fault Canvas := do
  let frameSize ← W.mul w h
  let yuv ← newYuv W frameSize
  let yuv ← lumaLoop W w h y yuv
  chromaLoop W frameSize w h uv yuv

/-- A picture in the colours of its pixels. -/
def planarOf (w h : ℕ) (picture : Picture) : Outcome Fault Canvas :=
  planar W w h (fun row col => clamp (picture row col).y)
    fun row col => .ok (clamp (picture row col).u,clamp (picture row col).v)

def scaled (src dst : ℕ) : ℕ := if dst > 1 then W.shl (src - 1) 16 / (dst - 1) else 0

def nearest (src dst d : ℕ) : ℕ := min ((d * scaled W src dst) >>> 16) (src - 1)

variable {W} {src dst d : ℕ}

theorem scale_eq (hsrc : 1 ≤ src) : scale W src dst = .ok (scaled W src dst) := by
  unfold scale scaled
  split
  · rw [sub_of_le hsrc,sub_of_le (by omega)]
    rfl
  · rfl

theorem fits_mul_scaled (hd : d < dst) : W.Fits (d * scaled W src dst) := by
  refine (fits_wrap ((src - 1) <<< 16)).mono ?_
  unfold scaled
  split
  · calc d * (W.shl (src - 1) 16 / (dst - 1))
        ≤ (dst - 1) * (W.shl (src - 1) 16 / (dst - 1)) := Nat.mul_le_mul_right _ (by omega)
      _ ≤ W.shl (src - 1) 16 := Nat.mul_div_le _ _
  · rw [Nat.mul_zero]
    exact Nat.zero_le _

theorem sample_eq (hsrc : 1 ≤ src) (hd : d < dst) :
    sample W d (scaled W src dst) src = .ok (nearest W src dst d) := by
  rw [sample,mul_of_fits (fits_mul_scaled hd),sub_of_le hsrc]
  rfl

theorem nearest_lt (hsrc : 1 ≤ src) : nearest W src dst d < src :=
  Nat.lt_of_le_of_lt (Nat.min_le_right _ _) (by omega)

theorem row_offset_ok {w h frameSize row : ℕ} (hsize : W.mul w h = .ok frameSize) (hrow : row < h) :
    ∃ yOff, W.mul row w = .ok yOff :=
  mul_ok_of_le hsize (by rw [Nat.mul_comm]; exact Nat.mul_le_mul_left w (Nat.le_of_lt hrow))

theorem chroma_row_ok {w h frameSize row : ℕ} (hsize : W.mul w h = .ok frameSize) (hrow : row < h) :
    ∃ uvRow, W.mul (row / 2) (w / 2) = .ok uvRow :=
  mul_ok_of_le hsize (by rw [Nat.mul_comm]; exact Nat.mul_le_mul (by omega) (by omega))

theorem row_col_lt {w h row col : ℕ} (hrow : row < h) (hcol : col < w) : row * w + col < w * h :=
  calc row * w + col < (row + 1) * w := by rw [Nat.succ_mul]; omega
    _ ≤ h * w := Nat.mul_le_mul_right w hrow
    _ = w * h := Nat.mul_comm h w

theorem newYuv_of_fits {frameSize : ℕ} (h : W.Fits (frameSize * 3)) :
    newYuv W frameSize = .ok (.zeros (frameSize * 3 / 2)) := by
  rw [newYuv,mul_of_fits h,ok_bind]

end Planar

section Bgra
variable {W : Word} {frame : Bytes} {stride srcW srcH : ℕ}

/-- A frame with all the rows that it should have. -/
structure BgraSource (W : Word) (frame : Bytes) (stride srcW srcH : ℕ) : Prop where
  width_pos : 1 ≤ srcW
  height_pos : 1 ≤ srcH
  stride_le : 4 * srcW ≤ stride
  rows : stride * srcH ≤ frame.length
  holds : W.Holds frame.length

def bgraAt (frame : Bytes) (stride : ℕ) : Picture := fun sy sx =>
  let i := sy * stride + sx * 4
  ⟨frame.getD (i + 2) 0,frame.getD (i + 1) 0,frame.getD i 0⟩

variable (hsource : BgraSource W frame stride srcW srcH)
include hsource

theorem bgra_in_frame {sx sy : ℕ} (hsx : sx < srcW) (hsy : sy < srcH) :
    sy * stride + sx * 4 + 2 < frame.length := by
  have hrow : sy * stride + stride ≤ srcH * stride := by
    rw [← Nat.succ_mul]
    exact Nat.mul_le_mul_right stride hsy
  have hstride := hsource.stride_le
  have hrows := hsource.rows
  rw [Nat.mul_comm] at hrows
  omega

theorem bgra_row_fits {sy : ℕ} (hsy : sy < srcH) : W.Fits (sy * stride) :=
  hsource.holds.fits.mono (by have := bgra_in_frame hsource hsource.width_pos hsy; omega)

theorem bgraPixel_bind {sx sy : ℕ} (hsx : sx < srcW) (hsy : sy < srcH) (k : Rgb → Outcome Fault Canvas) :
    (do let i ← W.add (sy * stride) (← W.mul sx 4)
        let p ← bgraPixel W frame i
        k p) = k (bgraAt frame stride sy sx) := by
  have hin := bgra_in_frame hsource hsx hsy
  have hfits : W.Fits (sy * stride + sx * 4 + 2) := hsource.holds.fits.mono (Nat.le_of_lt hin)
  rw [mul_of_fits (hfits.mono (by omega)),ok_bind,add_of_fits (hfits.mono (by omega)),ok_bind,bgraPixel,
    add_of_fits (hfits.mono (by omega)),add_of_fits hfits,index_of_lt (by omega),ok_bind,ok_bind,
    index_of_lt (by omega),ok_bind,ok_bind,index_of_lt hin]
  rfl

theorem bgraToYuv420_eq (dstW dstH : ℕ) : bgraToYuv420 W frame stride srcW srcH dstW dstH =
    planarOf W dstW dstH fun row col =>
      bgraAt frame stride (nearest W srcH dstH row) (nearest W srcW dstW col) := by
  unfold bgraToYuv420 planarOf planar lumaLoop chromaLoop
  rw [scale_eq hsource.width_pos,scale_eq hsource.height_pos]
  refine bind_congr fun frameSize hsize => bind_congr fun yuv _ => ?_
  refine congrArg₂ (· >>= ·) (foldlM_congr_mem (fun row hrow yuv => ?_) _)
    (funext fun yuv => foldlM_congr_mem (fun row hrow yuv => ?_) _)
  · have hrow := List.mem_range.mp hrow
    obtain ⟨yOff,hyOff⟩ := row_offset_ok hsize hrow
    rw [sample_eq hsource.height_pos hrow,ok_bind,
      mul_of_fits (bgra_row_fits hsource (nearest_lt hsource.height_pos)),ok_bind,hyOff,ok_bind]
    refine foldlM_congr_mem (fun col hcol yuv => ?_) _
    rw [sample_eq hsource.width_pos (List.mem_range.mp hcol),ok_bind,
      bgraPixel_bind hsource (nearest_lt hsource.width_pos) (nearest_lt hsource.height_pos),ok_bind]
  · have hrow := (mem_evens.mp hrow).1
    obtain ⟨uvRow,huvRow⟩ := chroma_row_ok hsize hrow
    rw [sample_eq hsource.height_pos hrow,ok_bind,
      mul_of_fits (bgra_row_fits hsource (nearest_lt hsource.height_pos)),ok_bind,huvRow,ok_bind]
    refine foldlM_congr_mem (fun col hcol yuv => ?_) _
    rw [sample_eq hsource.width_pos (mem_evens.mp hcol).1,ok_bind,
      bgraPixel_bind hsource (nearest_lt hsource.width_pos) (nearest_lt hsource.height_pos),ok_bind,ok_bind]

end Bgra

section Jpeg
variable {W : Word} {info : Jpeg} {n : ℕ}

def jpegAt (info : Jpeg) : Picture := fun sy sx =>
  match info.pixelFormat with
  | .rgb24 =>
    let i := (sy * info.width + sx) * 3
    ⟨info.pixels.getD i 0,info.pixels.getD (i + 1) 0,info.pixels.getD (i + 2) 0⟩
  | .l8 =>
    let l := info.pixels.getD (sy * info.width + sx) 0
    ⟨l,l,l⟩
  | _ => ⟨0,0,0⟩

theorem bytesPerPixel_eq {format : PixelFormat} (h : bytesPerPixel format = .ok n) : n = format.pixelBytes := by
  cases format <;> cases h <;> rfl

section Supported
variable (hformat : bytesPerPixel info.pixelFormat = .ok n)
include hformat

theorem jpeg_in_pixels {sx sy : ℕ} (hsx : sx < info.width) (hsy : sy < info.height) :
    (sy * info.width + sx) * n + n ≤ info.pixels.length := by
  rw [info.length_pixels,bytesPerPixel_eq hformat,← Nat.succ_mul]
  refine Nat.mul_le_mul_right _ ?_
  calc sy * info.width + sx + 1 ≤ (sy + 1) * info.width := by rw [Nat.succ_mul]; omega
    _ ≤ info.height * info.width := Nat.mul_le_mul_right _ hsy
    _ = info.width * info.height := Nat.mul_comm _ _

theorem jpegPixel_eq {sx sy : ℕ} (hholds : W.Holds info.pixels.length) (hsx : sx < info.width)
    (hsy : sy < info.height) :
    jpegPixel W info.pixelFormat info.pixels ((sy * info.width + sx) * n) = .ok (jpegAt info sy sx) := by
  have hin := jpeg_in_pixels hformat hsx hsy
  unfold jpegPixel jpegAt
  cases hf : info.pixelFormat with
  | rgb24 =>
    rw [hf] at hformat
    cases hformat
    have hfits : W.Fits ((sy * info.width + sx) * 3 + 3) := hholds.fits.mono hin
    dsimp only
    rw [index_of_lt (by omega),ok_bind,add_of_fits (hfits.mono (by omega)),ok_bind,index_of_lt (by omega),ok_bind,
      add_of_fits (hfits.mono (by omega)),ok_bind,index_of_lt (by omega),ok_bind]
  | l8 =>
    rw [hf] at hformat
    cases hformat
    dsimp only
    rw [index_of_lt (by omega),ok_bind,Nat.mul_one]
  | cmyk32 => rfl
  | l16 => rfl

theorem jpegPixel_bind {sx sy : ℕ} (hholds : W.Holds info.pixels.length) (hsx : sx < info.width)
    (hsy : sy < info.height) (k : Rgb → Outcome Fault Canvas) :
    (do let i ← W.mul (← W.add (← W.mul sy info.width) sx) n
        let p ← jpegPixel W info.pixelFormat info.pixels i
        k p) = k (jpegAt info sy sx) := by
  have hfits : W.Fits ((sy * info.width + sx) * n) :=
    hholds.fits.mono (by have := jpeg_in_pixels hformat hsx hsy; omega)
  have hpos : 1 ≤ n := by
    rw [bytesPerPixel_eq hformat]
    cases info.pixelFormat <;> decide
  have hadd : W.Fits (sy * info.width + sx) := hfits.mono (Nat.le_mul_of_pos_right _ hpos)
  rw [mul_of_fits (hadd.mono (by omega)),ok_bind,add_of_fits hadd,ok_bind,mul_of_fits hfits,ok_bind,
    jpegPixel_eq hformat hholds hsx hsy,ok_bind]

/-- The check of the length never fails, as the decoder returns all pixels. -/
theorem mjpegToYuv420_eq {decode : Bytes → Option Jpeg} {jpegData : Bytes} (hdecode : decode jpegData = some info)
    (hholds : W.Holds info.pixels.length) (w h : ℕ) : mjpegToYuv420 W decode jpegData w h =
      planarOf W w h fun row col =>
        jpegAt info (nearest W info.height h row) (nearest W info.width w col) := by
  have hlength : info.pixels.length = info.width * info.height * n := by
    rw [bytesPerPixel_eq hformat]
    exact info.length_pixels
  have hpos : 1 ≤ n := by
    rw [bytesPerPixel_eq hformat]
    cases info.pixelFormat <;> decide
  have hfits : W.Fits (info.width * info.height * n) := hlength ▸ hholds.fits
  unfold mjpegToYuv420 planarOf planar lumaLoop chromaLoop
  rw [hdecode]
  refine bind_congr fun frameSize hsize => bind_congr fun yuv _ => ?_
  dsimp only
  rw [hformat,ok_bind,mul_of_fits (hfits.mono (Nat.le_mul_of_pos_right _ hpos)),ok_bind,mul_of_fits hfits,ok_bind,
    if_neg (by omega),scale_eq info.width_pos,scale_eq info.height_pos,ok_bind,ok_bind]
  refine congrArg₂ (· >>= ·) (foldlM_congr_mem (fun row hrow yuv => ?_) _)
    (funext fun yuv => foldlM_congr_mem (fun row hrow yuv => ?_) _)
  · rw [sample_eq info.height_pos (List.mem_range.mp hrow),ok_bind]
    refine foldlM_congr_mem (fun col hcol yuv => ?_) _
    rw [sample_eq info.width_pos (List.mem_range.mp hcol),ok_bind,
      jpegPixel_bind hformat hholds (nearest_lt info.width_pos) (nearest_lt info.height_pos)]
  · rw [sample_eq info.height_pos (mem_evens.mp hrow).1,ok_bind]
    refine foldlM_congr_mem (fun col hcol yuv => ?_) _
    rw [sample_eq info.width_pos (mem_evens.mp hcol).1,ok_bind,
      jpegPixel_bind hformat hholds (nearest_lt info.width_pos) (nearest_lt info.height_pos),ok_bind]

end Supported

theorem mjpegToYuv420_unsupported {decode : Bytes → Option Jpeg} {jpegData : Bytes}
    (hdecode : decode jpegData = some info) (hformat : info.pixelFormat = .l16) (w h : ℕ) :
    mjpegToYuv420 W decode jpegData w h =
      W.mul w h >>= newYuv W >>= fun _ => .err (.failed "unsupported JPEG pixel format: L16") := by
  unfold mjpegToYuv420
  rw [hdecode,bind_bind]
  dsimp only
  rw [hformat]
  rfl

end Jpeg

section Yuyv
variable {W : Word} {src : Bytes} {w h : ℕ}

def yuyvY (src : Bytes) (w row col : ℕ) : UInt8 := src.getD (2 * (row * w + col)) 0

/-- Two pixels side by side share their colour. -/
def yuyvUv (src : Bytes) (w row col : ℕ) : Outcome Fault (UInt8 × UInt8) := do
  let u ← index src (2 * (row * w + col) + 1)
  let v ← index src (2 * (row * w + col) + 3)
  .ok (u,v)

variable (hholds : W.Holds src.length) (hlength : 2 * (w * h) ≤ src.length)
include hholds hlength

theorem yuyv_index_bind {row col : ℕ} (hrow : row < h) (hcol : col < w) (k : ℕ → Outcome Fault Canvas) :
    (do let i ← W.mul (← W.add (← W.mul row w) col) 2
        k i) = k (2 * (row * w + col)) := by
  have hlt := row_col_lt hrow hcol
  have hfits : W.Fits ((row * w + col) * 2) := hholds.fits.mono (by omega)
  rw [mul_of_fits (hfits.mono (by omega)),ok_bind,add_of_fits (hfits.mono (by omega)),ok_bind,mul_of_fits hfits,ok_bind,
    Nat.mul_comm]

theorem yuyvToYuv420_eq : yuyvToYuv420 W src w h = planar W w h (yuyvY src w) (yuyvUv src w) := by
  have hfits : W.Fits (w * h * 3) := Fits.mono hholds (by omega)
  unfold yuyvToYuv420 planar lumaLoop chromaLoop
  rw [mul_of_fits (hfits.mono (by omega)),ok_bind,ok_bind,newYuv_of_fits hfits,ok_bind,ok_bind,
    slice_of_le (Nat.zero_le _) (by rw [Canvas.length_zeros]; omega),ok_bind]
  refine congrArg₂ (· >>= ·) (foldlM_congr_mem (fun row hrow yuv => foldlM_congr_mem (fun col hcol yuv => ?_) _) _)
    (funext fun yuv => foldlM_congr_mem (fun row hrow yuv => foldlM_congr_mem (fun col hcol yuv => ?_) _) _)
  · have hrow := List.mem_range.mp hrow
    have hcol := List.mem_range.mp hcol
    have hlt := row_col_lt hrow hcol
    rw [yuyv_index_bind hholds hlength hrow hcol,index_of_lt (by omega),ok_bind,
      mul_of_fits (hfits.mono (by omega)),ok_bind,ok_bind,add_of_fits (hfits.mono (by omega)),ok_bind,ok_bind,
      writeLuma,if_pos hlt]
    rfl
  · have hrow := (mem_evens.mp hrow).1
    have hcol := (mem_evens.mp hcol).1
    have hlt := row_col_lt hrow hcol
    have hpixel : W.Fits (2 * (row * w + col) + 3) := Fits.mono hholds (by omega)
    rw [yuyv_index_bind hholds hlength hrow hcol,add_of_fits (hpixel.mono (by omega)),add_of_fits hpixel,yuyvUv,
      bind_bind]
    simp only [ok_bind,bind_bind]

end Yuyv

section Strokes
variable {W : Word} {w h : ℕ}

def lumaStrokes (w h : ℕ) (y : ℕ → ℕ → UInt8) : List Stroke :=
  (List.range h).flatMap fun row => (List.range w).flatMap fun col => [⟨.y,row * w + col,y row col⟩]

/-- The place of a pixel within a plane of the colours. -/
def chromaIndex (w row col : ℕ) : ℕ := row / 2 * (w / 2) + col / 2

def chromaStroke (w h row col : ℕ) (c : UInt8 × UInt8) : List Stroke :=
  [⟨.u,w * h + chromaIndex w row col,c.1⟩,⟨.v,w * h + w * h / 4 + chromaIndex w row col,c.2⟩]

def chromaStrokes (w h : ℕ) (uv : ℕ → ℕ → UInt8 × UInt8) : List Stroke :=
  (evens h).flatMap fun row => (evens w).flatMap fun col => chromaStroke w h row col (uv row col)

theorem mem_lumaStrokes {y : ℕ → ℕ → UInt8} {s : Stroke} :
    s ∈ lumaStrokes w h y ↔ ∃ row < h, ∃ col < w, s = ⟨.y,row * w + col,y row col⟩ := by
  simp only [lumaStrokes,List.mem_flatMap,List.mem_range,List.mem_singleton]

theorem mem_chromaStrokes {uv : ℕ → ℕ → UInt8 × UInt8} {s : Stroke} :
    s ∈ chromaStrokes w h uv ↔ ∃ row ∈ evens h, ∃ col ∈ evens w,
      s = ⟨.u,w * h + chromaIndex w row col,(uv row col).1⟩ ∨
        s = ⟨.v,w * h + w * h / 4 + chromaIndex w row col,(uv row col).2⟩ := by
  simp only [chromaStrokes,chromaStroke,List.mem_flatMap,List.mem_cons,List.not_mem_nil,or_false]

theorem chromaIndex_lt {row col : ℕ} (hrow : row < h) (hcol : col < w) : chromaIndex w row col < w * h := by
  refine Nat.lt_of_le_of_lt ?_ (row_col_lt hrow hcol)
  exact Nat.add_le_add (Nat.mul_le_mul (Nat.div_le_self _ _) (Nat.div_le_self _ _)) (Nat.div_le_self _ _)

variable (hfits : W.Fits (w * h * 3))
include hfits

theorem lumaLoop_eq (y : ℕ → ℕ → UInt8) (yuv : Canvas) :
    lumaLoop W w h y yuv = yuv.paint (lumaStrokes w h y) := by
  refine Canvas.foldlM_paint fun row hrow yuv => Canvas.foldlM_paint fun col hcol yuv => ?_
  have hlt := row_col_lt (List.mem_range.mp hrow) (List.mem_range.mp hcol)
  rw [mul_of_fits (hfits.mono (by omega)),ok_bind,add_of_fits (hfits.mono (by omega)),ok_bind,Canvas.paint_singleton]

theorem chromaPass_eq {row col : ℕ} (hrow : row ∈ evens h) (hcol : col ∈ evens w) (c : UInt8 × UInt8) (yuv : Canvas) :
    (do let idx ← W.add (← W.mul (row / 2) (w / 2)) (col / 2)
        let yuv ← yuv.write .u (← W.add (w * h) idx) c.1
        yuv.write .v (← W.add (← W.add (w * h) (w * h / 4)) idx) c.2) =
      yuv.paint (chromaStroke w h row col c) := by
  have hlt := chromaIndex_lt (mem_evens.mp hrow).1 (mem_evens.mp hcol).1
  have hfits' : W.Fits (w * h + w * h / 4 + chromaIndex w row col) := hfits.mono (by omega)
  have hidx : W.Fits (row / 2 * (w / 2) + col / 2) := hfits'.mono (Nat.le_add_left _ _)
  rw [mul_of_fits (hidx.mono (Nat.le_add_right _ _)),ok_bind,add_of_fits hidx,ok_bind,chromaStroke,
    Canvas.paint_cons]
  change (do
    let yuv ← yuv.write .u (← W.add (w * h) (chromaIndex w row col)) c.1
    yuv.write .v (← W.add (← W.add (w * h) (w * h / 4)) (chromaIndex w row col)) c.2) = _
  rw [add_of_fits (hfits'.mono (by omega)),ok_bind]
  refine bind_congr fun yuv _ => ?_
  rw [add_of_fits (hfits'.mono (by omega)),ok_bind,add_of_fits hfits',ok_bind,Canvas.paint_singleton]

theorem planar_eq_reads (y : ℕ → ℕ → UInt8) (uv : ℕ → ℕ → Outcome Fault (UInt8 × UInt8)) :
    planar W w h y uv = (Canvas.zeros (w * h * 3 / 2)).paint (lumaStrokes w h y) >>= fun yuv =>
      (evens h).foldlM (fun yuv row => (evens w).foldlM (fun yuv col => uv row col >>= fun c =>
        yuv.paint (chromaStroke w h row col c)) yuv) yuv := by
  rw [planar,mul_of_fits (hfits.mono (by omega)),ok_bind,newYuv_of_fits hfits,ok_bind,lumaLoop_eq hfits]
  refine bind_congr fun yuv _ => foldlM_congr_mem (fun row hrow yuv => foldlM_congr_mem (fun col hcol yuv => ?_) _) _
  exact bind_congr fun c _ => chromaPass_eq hfits hrow hcol c yuv

theorem planar_eq_paint {y : ℕ → ℕ → UInt8} {uv : ℕ → ℕ → Outcome Fault (UInt8 × UInt8)}
    {colours : ℕ → ℕ → UInt8 × UInt8} (hreads : ∀ row ∈ evens h, ∀ col ∈ evens w, uv row col = .ok (colours row col)) :
    planar W w h y uv =
      (Canvas.zeros (w * h * 3 / 2)).paint (lumaStrokes w h y ++ chromaStrokes w h colours) := by
  rw [planar_eq_reads hfits,Canvas.paint_append]
  refine bind_congr fun yuv _ => ?_
  refine Canvas.foldlM_paint fun row hrow yuv => Canvas.foldlM_paint fun col hcol yuv => ?_
  rw [hreads row hrow col hcol,ok_bind]

end Strokes

end Colour
end AnyKvm
