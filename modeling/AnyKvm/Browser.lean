import Mathlib.Data.List.Nodup
import Mathlib.Data.Rat.Floor
import AnyKvm.Hid

/-! `app.js`: what the browser holds down, and the frames that its event handlers send over the open data
channel. -/
namespace AnyKvm
namespace Browser

open Hid (Frame)

/-- A set of usages in the order of insertion. -/
structure KeySet where
  toList : List UInt8
  nodup : toList.Nodup
  deriving DecidableEq

namespace KeySet

def empty : KeySet := ⟨[],List.nodup_nil⟩

def add (s : KeySet) (usage : UInt8) : KeySet :=
  if h : usage ∈ s.toList then s
  else ⟨s.toList ++ [usage],List.nodup_append_comm.mp (List.nodup_cons.mpr ⟨h,s.nodup⟩)⟩

def delete (s : KeySet) (usage : UInt8) : KeySet := ⟨s.toList.erase usage,s.nodup.erase usage⟩

theorem toList_add (s : KeySet) (usage : UInt8) :
    (s.add usage).toList = if usage ∈ s.toList then s.toList else s.toList ++ [usage] := by
  unfold add
  split <;> rfl

end KeySet

/-- `hid`. -/
structure HidState where
  modifier : UInt8 := 0
  keys : KeySet := .empty
  buttons : UInt8 := 0
  deriving DecidableEq

/-- `KEY_MAP`. No code of a key names a property that objects inherit. -/
def keyMap : List (String × UInt8) :=
  [("KeyA",0x04),("KeyB",0x05),("KeyC",0x06),("KeyD",0x07),("KeyE",0x08),("KeyF",0x09),("KeyG",0x0A),
    ("KeyH",0x0B),("KeyI",0x0C),("KeyJ",0x0D),("KeyK",0x0E),("KeyL",0x0F),("KeyM",0x10),("KeyN",0x11),
    ("KeyO",0x12),("KeyP",0x13),("KeyQ",0x14),("KeyR",0x15),("KeyS",0x16),("KeyT",0x17),("KeyU",0x18),
    ("KeyV",0x19),("KeyW",0x1A),("KeyX",0x1B),("KeyY",0x1C),("KeyZ",0x1D),("Digit1",0x1e),("Digit2",0x1f),
    ("Digit3",0x20),("Digit4",0x21),("Digit5",0x22),("Digit6",0x23),("Digit7",0x24),("Digit8",0x25),
    ("Digit9",0x26),("Digit0",0x27),("Enter",0x28),("Escape",0x29),("Backspace",0x2a),("Tab",0x2b),
    ("Space",0x2c),("Minus",0x2d),("Equal",0x2e),("BracketLeft",0x2f),("BracketRight",0x30),("Backslash",0x31),
    ("Semicolon",0x33),("Quote",0x34),("Backquote",0x35),("Comma",0x36),("Period",0x37),("Slash",0x38),
    ("CapsLock",0x39),("F1",0x3a),("F2",0x3b),("F3",0x3c),("F4",0x3d),("F5",0x3e),("F6",0x3f),("F7",0x40),
    ("F8",0x41),("F9",0x42),("F10",0x43),("F11",0x44),("F12",0x45),("PrintScreen",0x46),("ScrollLock",0x47),
    ("Pause",0x48),("Insert",0x49),("Home",0x4a),("PageUp",0x4b),("Delete",0x4c),("End",0x4d),("PageDown",0x4e),
    ("ArrowRight",0x4f),("ArrowLeft",0x50),("ArrowDown",0x51),("ArrowUp",0x52),("NumLock",0x53),
    ("NumpadDivide",0x54),("NumpadMultiply",0x55),("NumpadSubtract",0x56),("NumpadAdd",0x57),
    ("NumpadEnter",0x58),("Numpad1",0x59),("Numpad2",0x5a),("Numpad3",0x5b),("Numpad4",0x5c),("Numpad5",0x5d),
    ("Numpad6",0x5e),("Numpad7",0x5f),("Numpad8",0x60),("Numpad9",0x61),("Numpad0",0x62),("NumpadDecimal",0x63),
    ("ContextMenu",0x65),("ControlLeft",0),("ControlRight",0),("ShiftLeft",0),("ShiftRight",0),("AltLeft",0),
    ("AltRight",0),("MetaLeft",0),("MetaRight",0)]

def modifierBit (code : String) : UInt8 :=
  match code with
  | "ControlLeft" => 0x01
  | "ShiftLeft" => 0x02
  | "AltLeft" => 0x04
  | "MetaLeft" => 0x08
  | "ControlRight" => 0x10
  | "ShiftRight" => 0x20
  | "AltRight" => 0x40
  | "MetaRight" => 0x80
  | _ => 0

/-- The place of the mouse, that of the captured area, and the size of the video. -/
structure Motion where
  clientX : ℚ
  clientY : ℚ
  left : ℚ
  top : ℚ
  clientWidth : ℕ
  clientHeight : ℕ
  deriving DecidableEq

/-- `wheel` carries `deltaY`; the last two are requests from the control panel. -/
inductive Event
  | keyDown (code : String)
  | keyUp (code : String)
  | mouseMove (m : Motion)
  | mouseDown (button : ℤ)
  | mouseUp (button : ℤ)
  | wheel (deltaY : ℚ)
  | changeResolution (w h : ℕ)
  | changeFps (fps : ℕ)
  deriving DecidableEq

/-- The first six, filled up with zeros. -/
def sixKeys (keys : List UInt8) : List UInt8 :=
  keys.take 6 ++ List.replicate (6 - (keys.take 6).length) 0

def sendKeyboard (hid : HidState) : Frame := 0x01 :: hid.modifier :: sixKeys hid.keys.toList

def round (v : ℚ) : ℤ := (v + 1 / 2).floor

/-- An absolute coordinate; a video without an extent counts as one of a pixel. Rationals stand for the doubles of
JavaScript here, so the quotient is not rounded before `round`. -/
def absolute (v : ℚ) (extent : ℕ) : ℕ :=
  let size := if extent = 0 then 1 else extent
  (min 32767 (max 0 (round (v / size * 32767)))).toNat

def sendMouseMove (hid : HidState) (ax ay : ℕ) : Frame :=
  [0x02,hid.buttons,UInt8.ofNat (ax >>> 8),UInt8.ofNat ax,UInt8.ofNat (ay >>> 8),UInt8.ofNat ay,0,0]

def sendMouseButtons (hid : HidState) : Frame := [0x03,hid.buttons,0,0,0,0,0,0]

def sendMouseWheel (delta : ℤ) : Frame := [0x04,UInt8.ofInt (max (-127) (min 127 delta)),0,0,0,0,0,0]

def sign (v : ℚ) : ℤ := if 0 < v then 1 else if v < 0 then -1 else 0

/-- `[0x01, 0x04, 0x02][button] || 0`. -/
def buttonBit (button : ℤ) : UInt8 :=
  if button = 0 then 0x01 else if button = 1 then 0x04 else if button = 2 then 0x02 else 0

def onKeyDown (hid : HidState) (code : String) : HidState :=
  let mod := modifierBit code
  if mod ≠ 0 then { hid with modifier := hid.modifier ||| mod }
  else match keyMap.lookup code with
    | some usage => if usage ≠ 0 then { hid with keys := hid.keys.add usage } else hid
    | none => hid

def onKeyUp (hid : HidState) (code : String) : HidState :=
  let mod := modifierBit code
  if mod ≠ 0 then { hid with modifier := hid.modifier &&& ~~~mod }
  else match keyMap.lookup code with
    | some usage => if usage ≠ 0 then { hid with keys := hid.keys.delete usage } else hid
    | none => hid

def Motion.ax (m : Motion) : ℕ := absolute (m.clientX - m.left) m.clientWidth

def Motion.ay (m : Motion) : ℕ := absolute (m.clientY - m.top) m.clientHeight

def changeResolutionDirect (w h : ℕ) : Option Frame :=
  if w = 0 ∨ h = 0 then none
  else some [0x10,0x01,UInt8.ofNat (w >>> 8),UInt8.ofNat w,UInt8.ofNat (h >>> 8),UInt8.ofNat h,0,0]

def changeFpsDirect (fps : ℕ) : Option Frame :=
  if fps = 0 then none else some [0x10,0x02,UInt8.ofNat fps,0,0,0,0,0]

/-- The handler of an event, with the frame that it sends. -/
def onEvent (hid : HidState) : Event → HidState × Option Frame
  | .keyDown code =>
    let hid := onKeyDown hid code
    (hid,some (sendKeyboard hid))
  | .keyUp code =>
    let hid := onKeyUp hid code
    (hid,some (sendKeyboard hid))
  | .mouseMove m => (hid,some (sendMouseMove hid m.ax m.ay))
  | .mouseDown button =>
    let hid := { hid with buttons := hid.buttons ||| buttonBit button }
    (hid,some (sendMouseButtons hid))
  | .mouseUp button =>
    let hid := { hid with buttons := hid.buttons &&& ~~~buttonBit button }
    (hid,some (sendMouseButtons hid))
  | .wheel deltaY => (hid,some (sendMouseWheel (-sign deltaY)))
  | .changeResolution w h => (hid,changeResolutionDirect w h)
  | .changeFps fps => (hid,changeFpsDirect fps)

/-- The state after a sequence of events, with the frames sent, both newest first. -/
def session : List Event → HidState × List Frame
  | [] => ({},[])
  | event :: events =>
    let before := session events
    let r := onEvent before.1 event
    (r.1,r.2.toList ++ before.2)

/-- The keys held down, in the order in which they have been pressed. -/
def held : List Event → List String
  | [] => []
  | .keyDown code :: events => if code ∈ held events then held events else held events ++ [code]
  | .keyUp code :: events => (held events).erase code
  | _ :: events => held events

def modifiers (codes : List String) : UInt8 := codes.foldr (fun code mods => modifierBit code ||| mods) 0

def usage? (code : String) : Option UInt8 :=
  if modifierBit code ≠ 0 then none
  else (keyMap.lookup code).filter (· ≠ 0)

end Browser
end AnyKvm
