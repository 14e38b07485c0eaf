import AnyKvm.Canvas
import Mathlib.Data.Int.Notation

/-! `video.rs`: pictures of the three capture formats, converted to planar YUV 4:2:0. -/
namespace AnyKvm
namespace Colour

open Outcome

structure Rgb where
  r : UInt8
  g : UInt8
  b : UInt8
  deriving DecidableEq, Repr

namespace Rgb

/-- BT.601, limited range. -/
def y (p : Rgb) : ℤ := ((66 * p.r.toNat + 129 * p.g.toNat + 25 * p.b.toNat + 128 : ℤ) >>> (8 : ℕ)) + 16

def u (p : Rgb) : ℤ := ((-38 * p.r.toNat - 74 * p.g.toNat + 112 * p.b.toNat + 128 : ℤ) >>> (8 : ℕ)) + 128

def v (p : Rgb) : ℤ := ((112 * p.r.toNat - 94 * p.g.toNat - 18 * p.b.toNat + 128 : ℤ) >>> (8 : ℕ)) + 128

end Rgb

/-- `x.clamp(0, 255) as u8`. -/
def clamp (x : ℤ) : UInt8 := UInt8.ofNat (min (max x 0) 255).toNat

variable (W : Word)

/-- The way from one pixel to the next in the source, in fixed point with 16 bits after the point. -/
def scale (src dst : ℕ) : Outcome Fault ℕ :=
  if dst > 1 then do
    let a := W.shl (← W.sub src 1) 16
    let b ← W.sub dst 1
    .ok (a / b)
  else .ok 0

def sample (d scale src : ℕ) : Outcome Fault ℕ := do
  let s := (← W.mul d scale) >>> 16
  let last ← W.sub src 1
  .ok (min s last)

/-- `(0..n).step_by(2)`. -/
def evens (n : ℕ) : List ℕ := (List.range ((n + 1) / 2)).map (2 * ·)

/-- `vec![0u8; frame_size * 3 / 2]`. -/
def newYuv (frameSize : ℕ) : Outcome Fault Canvas := do
  let n ← W.mul frameSize 3
  .ok (.zeros (n / 2))

def bgraPixel (frame : Bytes) (i : ℕ) : Outcome Fault Rgb := do
  let b ← index frame i
  let g ← index frame (← W.add i 1)
  let r ← index frame (← W.add i 2)
  .ok ⟨r,g,b⟩

def bgraToYuv420 (frame : Bytes) (stride srcW srcH dstW dstH : ℕ) : Outcome Fault Canvas := do
  let frameSize ← W.mul dstW dstH
  let yuv ← newYuv W frameSize
  let scaleX ← scale W srcW dstW
  let scaleY ← scale W srcH dstH
  let yuv ← (List.range dstH).foldlM (fun yuv dy => do
    let sy ← sample W dy scaleY srcH
    let rowOff ← W.mul sy stride
    let yOff ← W.mul dy dstW
    (List.range dstW).foldlM (fun yuv dx => do
      let sx ← sample W dx scaleX srcW
      let i ← W.add rowOff (← W.mul sx 4)
      let p ← bgraPixel W frame i
      yuv.write .y (← W.add yOff dx) (clamp p.y)) yuv) yuv
  let uvStart := frameSize
  let uvW := dstW / 2
  (evens dstH).foldlM (fun yuv dy => do
    let sy ← sample W dy scaleY srcH
    let rowOff ← W.mul sy stride
    let uvRow ← W.mul (dy / 2) uvW
    (evens dstW).foldlM (fun yuv dx => do
      let sx ← sample W dx scaleX srcW
      let i ← W.add rowOff (← W.mul sx 4)
      let p ← bgraPixel W frame i
      let idx ← W.add uvRow (dx / 2)
      let yuv ← yuv.write .u (← W.add uvStart idx) (clamp p.u)
      yuv.write .v (← W.add (← W.add uvStart (frameSize / 4)) idx) (clamp p.v)) yuv) yuv

inductive PixelFormat
  | l8
  | l16
  | rgb24
  | cmyk32
  deriving DecidableEq, Repr

/-- The bytes of a pixel, as the decoder lays them out. -/
def PixelFormat.pixelBytes : PixelFormat → ℕ
  | .l8 => 1
  | .l16 => 2
  | .rgb24 => 3
  | .cmyk32 => 4

/-- What the decoder makes of a picture: the pixels, with the info that goes with them. -/
structure Jpeg where
  width : ℕ
  height : ℕ
  pixelFormat : PixelFormat
  pixels : Bytes
  width_pos : 1 ≤ width
  height_pos : 1 ≤ height
  length_pixels : pixels.length = width * height * pixelFormat.pixelBytes

/-- The formats that are converted. -/
def bytesPerPixel : PixelFormat → Outcome Fault ℕ
  | .rgb24 => .ok 3
  | .l8 => .ok 1
  | .cmyk32 => .ok 4
  | .l16 => .err (.failed "unsupported JPEG pixel format: L16")

/-- A pixel in CMYK becomes black. -/
def jpegPixel (format : PixelFormat) (pixels : Bytes) (i : ℕ) : Outcome Fault Rgb :=
  match format with
  | .rgb24 => do
    let r ← index pixels i
    let g ← index pixels (← W.add i 1)
    let b ← index pixels (← W.add i 2)
    .ok ⟨r,g,b⟩
  | .l8 => do
    let l ← index pixels i
    .ok ⟨l,l,l⟩
  | _ => .ok ⟨0,0,0⟩

def mjpegToYuv420 (decode : Bytes → Option Jpeg) (jpegData : Bytes) (w h : ℕ) : Outcome Fault Canvas :=
  match decode jpegData with
  | none => .err (.failed "JPEG decode failed")
  | some info => do
    let srcW := info.width
    let srcH := info.height
    let frameSize ← W.mul w h
    let yuv ← newYuv W frameSize
    let bytesPerPixel ← bytesPerPixel info.pixelFormat
    let expected ← W.mul (← W.mul srcW srcH) bytesPerPixel
    let got := info.pixels.length
    if got < expected then
      .err (.failed s!"JPEG decoded buffer too small: got {got} bytes, expected {expected}")
    else do
      let scaleX ← scale W srcW w
      let scaleY ← scale W srcH h
      let yuv ← (List.range h).foldlM (fun yuv dy => do
        let sy ← sample W dy scaleY srcH
        (List.range w).foldlM (fun yuv dx => do
          let sx ← sample W dx scaleX srcW
          let i ← W.mul (← W.add (← W.mul sy srcW) sx) bytesPerPixel
          let p ← jpegPixel W info.pixelFormat info.pixels i
          yuv.write .y (← W.add (← W.mul dy w) dx) (clamp p.y)) yuv) yuv
      let uvStart := frameSize
      (evens h).foldlM (fun yuv dy => do
        let sy ← sample W dy scaleY srcH
        (evens w).foldlM (fun yuv dx => do
          let sx ← sample W dx scaleX srcW
          let i ← W.mul (← W.add (← W.mul sy srcW) sx) bytesPerPixel
          let p ← jpegPixel W info.pixelFormat info.pixels i
          let idx ← W.add (← W.mul (dy / 2) (w / 2)) (dx / 2)
          let yuv ← yuv.write .u (← W.add uvStart idx) (clamp p.u)
          yuv.write .v (← W.add (← W.add uvStart (frameSize / 4)) idx) (clamp p.v)) yuv) yuv

/-- `y_plane[i] = byte`, where `y_plane` is the front of the buffer. -/
def writeLuma (yuv : Canvas) (frameSize i : ℕ) (byte : UInt8) : Outcome Fault Canvas :=
  if i < frameSize then yuv.write .y i byte else .panicked

def yuyvToYuv420 (src : Bytes) (w h : ℕ) : Outcome Fault Canvas := do
  let frameSize ← W.mul w h
  let yuv ← newYuv W frameSize
  -- `&mut yuv[..frame_size]`
  let _ ← slice yuv.yuv 0 frameSize
  let uvStart := frameSize
  let yuv ← (List.range h).foldlM (fun yuv row => do
    (List.range w).foldlM (fun yuv col => do
      let i ← W.mul (← W.add (← W.mul row w) col) 2
      let b ← index src i
      writeLuma yuv frameSize (← W.add (← W.mul row w) col) b) yuv) yuv
  (evens h).foldlM (fun yuv row => do
    (evens w).foldlM (fun yuv col => do
      let i ← W.mul (← W.add (← W.mul row w) col) 2
      let u ← index src (← W.add i 1)
      let v ← index src (← W.add i 3)
      let uvIdx ← W.add (← W.mul (row / 2) (w / 2)) (col / 2)
      let yuv ← yuv.write .u (← W.add uvStart uvIdx) u
      yuv.write .v (← W.add (← W.add uvStart (frameSize / 4)) uvIdx) v) yuv) yuv

end Colour
end AnyKvm
