import AnyKvm.Outcome

/-! `hid.rs`: how the frames of the data channel become HID reports and video commands.
The loop bodies of both back ends are functions of their local variables and of one frame. -/
namespace AnyKvm
namespace Hid

open Bytes (u16FromBeBytes)

abbrev Frame := List UInt8

/-- A command for the video module, sent over the data channel. -/
inductive VideoControl
  | changeResolution (width height : UInt32)
  | changeFps (fps : UInt32)
  deriving DecidableEq, Repr

inductive Device
  | keyboard | mouse
  deriving DecidableEq, Repr

structure Report where
  device : Device
  bytes : List UInt8
  deriving DecidableEq, Repr

def typeKeyboard : UInt8 := 0x01
def typeMouseMove : UInt8 := 0x02
def typeMouseBtn : UInt8 := 0x03
def typeMouseWheel : UInt8 := 0x04
def typeControl : UInt8 := 0x10

/-- The subtypes of a control frame; both back ends decode them alike. -/
def control (subtype b₂ b₃ b₄ b₅ : UInt8) : Option VideoControl :=
  if subtype = 0x01 then
    some (.changeResolution (u16FromBeBytes b₂ b₃).toUInt32 (u16FromBeBytes b₄ b₅).toUInt32)
  else if subtype = 0x02 then some (.changeFps b₂.toUInt32)
  else none

/-- The video command in a frame, whatever else the frame does. -/
def command : Frame → Option VideoControl
  | ty :: b₁ :: b₂ :: b₃ :: b₄ :: b₅ :: _ :: _ :: _ =>
    if ty = typeControl then control b₁ b₂ b₃ b₄ b₅ else none
  | _ => none

/-- What one pass of a frame loop does besides updating the local variables. -/
structure Effect (R : Type*) where
  report : Option R := none
  command : Option VideoControl := none
  deriving DecidableEq, Repr

/-- Buttons, absolute position and wheel in the six bytes of the mouse descriptor. -/
def makeAbsMouseReport (buttons : UInt8) (x y : UInt16) (wheel : Int8) : List UInt8 :=
  [buttons,(x &&& 0xff).toUInt8,((x >>> 8) &&& 0xff).toUInt8,
    (y &&& 0xff).toUInt8,((y >>> 8) &&& 0xff).toUInt8,wheel.toUInt8]

structure Gadget where
  kbd : Bool
  mouse : Bool
  lastX : UInt16 := 0x3fff
  lastY : UInt16 := 0x3fff
  lastButtons : UInt8 := 0
  deriving DecidableEq, Repr

namespace Gadget

def kbdReport (g : Gadget) (bytes : List UInt8) : Option Report :=
  if g.kbd then some ⟨.keyboard,bytes⟩ else none

def mouseReport (g : Gadget) (wheel : Int8) : Option Report :=
  if g.mouse then some ⟨.mouse,makeAbsMouseReport g.lastButtons g.lastX g.lastY wheel⟩ else none

/-- One pass of the loop of `runGadget`. Frames of fewer than eight bytes are skipped. -/
def onFrame (g : Gadget) : Frame → Gadget × Effect Report
  | ty :: b₁ :: b₂ :: b₃ :: b₄ :: b₅ :: b₆ :: b₇ :: _ =>
    if ty = typeKeyboard then
      (g,{ report := g.kbdReport [b₁,0x00,b₂,b₃,b₄,b₅,b₆,b₇] })
    else if ty = typeMouseMove then
      let g := { g with lastButtons := b₁, lastX := u16FromBeBytes b₂ b₃, lastY := u16FromBeBytes b₄ b₅ }
      (g,{ report := g.mouseReport 0 })
    else if ty = typeMouseBtn then
      let g := { g with lastButtons := b₁ }
      (g,{ report := g.mouseReport 0 })
    else if ty = typeMouseWheel then (g,{ report := g.mouseReport b₁.toInt8 })
    else if ty = typeControl then (g,{ command := control b₁ b₂ b₃ b₄ b₅ })
    else (g,{})
  | _ => (g,{})

end Gadget

/-- `[0x57, 0xAB, addr, cmd, len, data.., checksum]`. -/
def ch9329Frame (cmd : UInt8) (data : List UInt8) : List UInt8 :=
  let frame := [0x57,0xAB,0x00,cmd,UInt8.ofNat data.length] ++ data
  let sum := frame.foldl (fun sum b => sum + b.toNat) 0
  frame ++ [UInt8.ofNat (sum &&& 0xff)]

def ch9329Keyboard (modifier : UInt8) (keys : List UInt8) : List UInt8 :=
  ch9329Frame 0x02 ([modifier,0x00] ++ keys)

/-- The wheel byte of the serial command stays zero. -/
def ch9329AbsMouse (buttons : UInt8) (x y : UInt16) : List UInt8 :=
  ch9329Frame 0x04 [buttons,(x &&& 0xff).toUInt8,((x >>> 8) &&& 0xff).toUInt8,
    (y &&& 0xff).toUInt8,((y >>> 8) &&& 0xff).toUInt8,0x00]

structure Ch9329 where
  lastX : UInt16 := 0x3fff
  lastY : UInt16 := 0x3fff
  deriving DecidableEq, Repr

/-- One pass of the loop of `runCh9329`; the report is the packet for the serial port. -/
def Ch9329.onFrame (p : Ch9329) : Frame → Ch9329 × Effect (List UInt8)
  | ty :: b₁ :: b₂ :: b₃ :: b₄ :: b₅ :: b₆ :: b₇ :: _ =>
    if ty = typeKeyboard then (p,{ report := some (ch9329Keyboard b₁ [b₂,b₃,b₄,b₅,b₆,b₇]) })
    else if ty = typeMouseMove then
      let p := { p with lastX := u16FromBeBytes b₂ b₃, lastY := u16FromBeBytes b₄ b₅ }
      (p,{ report := some (ch9329AbsMouse b₁ p.lastX p.lastY) })
    else if ty = typeMouseBtn then (p,{ report := some (ch9329AbsMouse b₁ p.lastX p.lastY) })
    else if ty = typeMouseWheel then (p,{ report := some (ch9329AbsMouse 0 p.lastX p.lastY) })
    else if ty = typeControl then (p,{ command := control b₁ b₂ b₃ b₄ b₅ })
    else (p,{})
  | _ => (p,{})

theorem Gadget.onFrame_command (g : Gadget) (frame : Frame) :
    (g.onFrame frame).2.command = command frame := by
  unfold Gadget.onFrame command
  split
  · rename_i ty _ _ _ _ _ _ _ _
    by_cases hc : ty = typeControl
    · subst hc
      simp [typeKeyboard,typeMouseMove,typeMouseBtn,typeMouseWheel,typeControl]
    · simp only [hc,if_false]
      split_ifs <;> rfl
  · rfl

theorem Ch9329.onFrame_command (p : Ch9329) (frame : Frame) :
    (p.onFrame frame).2.command = command frame := by
  unfold Ch9329.onFrame command
  split
  · rename_i ty _ _ _ _ _ _ _ _
    by_cases hc : ty = typeControl
    · subst hc
      simp [typeKeyboard,typeMouseMove,typeMouseBtn,typeMouseWheel,typeControl]
    · simp only [hc,if_false]
      split_ifs <;> rfl
  · rfl

end Hid
end AnyKvm
