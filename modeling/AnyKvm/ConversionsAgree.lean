import AnyKvm.PlanarForm

/-! The two conversions that scale a picture. They are written twice, over different layouts of the pixels,
and make the same of the same picture. -/
namespace AnyKvm
namespace Colour

open Outcome Word

/-- A picture in RGB, row by row. -/
def RgbPixels (image : Picture) (w h : ℕ) (pixels : Bytes) : Prop :=
  ∀ sy < h, ∀ sx < w, let i := (sy * w + sx) * 3
    pixels[i]? = some (image sy sx).r ∧ pixels[i + 1]? = some (image sy sx).g ∧
      pixels[i + 2]? = some (image sy sx).b

/-- A picture in BGRA, with rows of `stride` bytes: nothing is said of the fourth byte of a pixel or of what
stands behind the last pixel of a row. -/
def BgraPixels (image : Picture) (w h stride : ℕ) (frame : Bytes) : Prop :=
  ∀ sy < h, ∀ sx < w, let i := sy * stride + sx * 4
    frame[i]? = some (image sy sx).b ∧ frame[i + 1]? = some (image sy sx).g ∧
      frame[i + 2]? = some (image sy sx).r

variable {W : Word} {image : Picture}

theorem jpegAt_eq {info : Jpeg} (hformat : info.pixelFormat = .rgb24)
    (hpixels : RgbPixels image info.width info.height info.pixels) {sy sx : ℕ} (hsy : sy < info.height)
    (hsx : sx < info.width) : jpegAt info sy sx = image sy sx := by
  obtain ⟨hr,hg,hb⟩ := hpixels sy hsy sx hsx
  unfold jpegAt
  rw [hformat]
  simp only [List.getD_eq_getElem?_getD,hr,hg,hb,Option.getD_some]

theorem bgraAt_eq {frame : Bytes} {w h stride : ℕ} (hpixels : BgraPixels image w h stride frame) {sy sx : ℕ}
    (hsy : sy < h) (hsx : sx < w) : bgraAt frame stride sy sx = image sy sx := by
  obtain ⟨hb,hg,hr⟩ := hpixels sy hsy sx hsx
  unfold bgraAt
  simp only [List.getD_eq_getElem?_getD,hr,hg,hb,Option.getD_some]

/-- A picture that is decoded to RGB ends as it does from the screen, at every size and with every stride,
whether overflow is a fault or wraps. -/
theorem conversions_agree {decode : Bytes → Option Jpeg} {jpegData : Bytes} {info : Jpeg} {frame : Bytes} {stride : ℕ}
    (hdecode : decode jpegData = some info) (hformat : info.pixelFormat = .rgb24)
    (hholds : W.Holds info.pixels.length) (hrgb : RgbPixels image info.width info.height info.pixels)
    (hsource : BgraSource W frame stride info.width info.height)
    (hbgra : BgraPixels image info.width info.height stride frame) (w h : ℕ) :
    mjpegToYuv420 W decode jpegData w h = bgraToYuv420 W frame stride info.width info.height w h := by
  rw [mjpegToYuv420_eq (n := 3) (by rw [hformat]; rfl) hdecode hholds,bgraToYuv420_eq hsource]
  refine congrArg (planarOf W w h) (funext fun row => funext fun col => ?_)
  have hsy : nearest W info.height h row < info.height := nearest_lt info.height_pos
  have hsx : nearest W info.width w col < info.width := nearest_lt info.width_pos
  exact (jpegAt_eq hformat hrgb hsy hsx).trans (bgraAt_eq hbgra hsy hsx).symm

/-- A baseline JPEG of nine pixels in a row, which takes two blocks of eight. -/
def twoBlocks : Bytes :=
  [255,216,255,219,0,67,0,8,8,8,8,8,8,8,8,8,8,8,8,8,8,8,8,8,8,8,8,8,8,8,8,8,8,8,8,8,8,8,8,8,8,8,8,8,8,8,8,8,8,
   8,8,8,8,8,8,8,8,8,8,8,8,8,8,8,8,8,8,8,8,8,8,255,192,0,17,8,0,1,0,9,3,1,17,0,2,17,0,3,17,0,255,196,0,23,0,0,
   3,1,0,0,0,0,0,0,0,0,0,0,0,0,0,0,5,6,7,255,196,0,20,16,1,0,0,0,0,0,0,0,0,0,0,0,0,0,0,0,0,255,218,0,12,3,1,0,
   2,0,3,0,0,63,0,70,27,32,89,49,183,255,217]

/-- The pixels of the first block are all alike; of the second, one is in the picture. -/
def twoColours : Picture := fun _ sx => if sx < 8 then ⟨240,29,100⟩ else ⟨100,83,189⟩

/-- What the file holds, and for no other file a result. -/
def decodeTwoBlocks (data : Bytes) : Option Jpeg :=
  if data = twoBlocks then
    some ⟨9,1,.rgb24,(List.replicate 8 [240,29,100]).flatten ++ [100,83,189],by decide,by decide,by decide⟩
  else none

/-- The same nine pixels on a screen, whose rows are padded to forty bytes. -/
def twoColoursFrame : Bytes :=
  (List.replicate 8 [100,29,240,255]).flatten ++ [189,83,100,255,7,7,7,7]

/-- Nine pixels of two colours, scaled to four by two. -/
theorem conversions_agree_twoColours :
    mjpegToYuv420 ⟨some 32,true⟩ decodeTwoBlocks twoBlocks 4 2 =
      bgraToYuv420 ⟨some 32,true⟩ twoColoursFrame 40 9 1 4 2 := by
  have hrgb : RgbPixels twoColours 9 1 ((List.replicate 8 [240,29,100]).flatten ++ [100,83,189]) := by
    unfold RgbPixels
    decide
  have hbgra : BgraPixels twoColours 9 1 40 twoColoursFrame := by
    unfold BgraPixels
    decide
  have hsource : BgraSource ⟨some 32,true⟩ twoColoursFrame 40 9 1 :=
    ⟨by decide,by decide,by decide,by decide,by decide⟩
  have hdecode : decodeTwoBlocks twoBlocks = some _ := if_pos rfl
  exact conversions_agree hdecode rfl (by decide) hrgb hsource hbgra 4 2

end Colour
end AnyKvm
