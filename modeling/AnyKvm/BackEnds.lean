import AnyKvm.AttrLayout
import AnyKvm.Hid
import AnyKvm.Transition

/-! Both back ends of `hid.rs` on the same frames: what the target makes of the reports of the USB gadget and
of the packets for the CH9329. Both devices of the gadget are open and every write gets through. -/
namespace AnyKvm
namespace Hid

open Transition
open Bytes (u16FromBeBytes)

/-- What a frame asks for; short frames and unknown types are skipped. -/
inductive Input
  | keyboard (modifier : UInt8) (keys : List UInt8)
  | move (buttons : UInt8) (x y : UInt16)
  | button (buttons : UInt8)
  | wheel (delta : UInt8)
  | control (command : Option VideoControl)
  | skipped
  deriving DecidableEq, Repr

def input : Frame → Input
  | ty :: b₁ :: b₂ :: b₃ :: b₄ :: b₅ :: b₆ :: b₇ :: _ =>
    if ty = typeKeyboard then .keyboard b₁ [b₂,b₃,b₄,b₅,b₆,b₇]
    else if ty = typeMouseMove then .move b₁ (u16FromBeBytes b₂ b₃) (u16FromBeBytes b₄ b₅)
    else if ty = typeMouseBtn then .button b₁
    else if ty = typeMouseWheel then .wheel b₁
    else if ty = typeControl then .control (control b₁ b₂ b₃ b₄ b₅)
    else .skipped
  | _ => .skipped

namespace Gadget

def onInput (g : Gadget) : Input → Gadget × Effect Report
  | .keyboard modifier keys => (g,{ report := g.kbdReport (modifier :: 0x00 :: keys) })
  | .move buttons x y =>
    let g := { g with lastButtons := buttons, lastX := x, lastY := y }
    (g,{ report := g.mouseReport 0 })
  | .button buttons =>
    let g := { g with lastButtons := buttons }
    (g,{ report := g.mouseReport 0 })
  | .wheel delta => (g,{ report := g.mouseReport delta.toInt8 })
  | .control command => (g,{ command := command })
  | .skipped => (g,{})

theorem onFrame_eq (g : Gadget) (frame : Frame) : g.onFrame frame = g.onInput (input frame) := by
  match frame with
  | ty :: b₁ :: b₂ :: b₃ :: b₄ :: b₅ :: b₆ :: b₇ :: _ =>
    simp only [onFrame,input]
    split_ifs <;> rfl
  | [] | [_] | [_,_] | [_,_,_] | [_,_,_,_] | [_,_,_,_,_] | [_,_,_,_,_,_] | [_,_,_,_,_,_,_] => rfl

end Gadget

namespace Ch9329

def onInput (p : Ch9329) : Input → Ch9329 × Effect (List UInt8)
  | .keyboard modifier keys => (p,{ report := some (ch9329Keyboard modifier keys) })
  | .move buttons x y =>
    let p := { p with lastX := x, lastY := y }
    (p,{ report := some (ch9329AbsMouse buttons p.lastX p.lastY) })
  | .button buttons => (p,{ report := some (ch9329AbsMouse buttons p.lastX p.lastY) })
  | .wheel _ => (p,{ report := some (ch9329AbsMouse 0 p.lastX p.lastY) })
  | .control command => (p,{ command := command })
  | .skipped => (p,{})

theorem onFrame_eq (p : Ch9329) (frame : Frame) : p.onFrame frame = p.onInput (input frame) := by
  match frame with
  | ty :: b₁ :: b₂ :: b₃ :: b₄ :: b₅ :: b₆ :: b₇ :: _ =>
    simp only [onFrame,input]
    split_ifs <;> rfl
  | [] | [_] | [_,_] | [_,_,_] | [_,_,_,_] | [_,_,_,_,_] | [_,_,_,_,_,_] | [_,_,_,_,_,_,_] => rfl

end Ch9329

structure Pointer where
  buttons : UInt8
  x : UInt16
  y : UInt16
  deriving DecidableEq, Repr

def Pointer.set (p : Pointer) : Input → Pointer
  | .move buttons x y => ⟨buttons,x,y⟩
  | .button buttons => { p with buttons := buttons }
  | _ => p

/-- What the target has been told last, modifiers with the six keys and the mouse. -/
structure Target where
  keyboard : Option (UInt8 × List UInt8) := none
  pointer : Option Pointer := none
  deriving DecidableEq, Repr

namespace Target

def onReport (t : Target) (report : Report) : Target :=
  match report.device, report.bytes with
  | .keyboard, modifier :: _ :: keys => { t with keyboard := some (modifier,keys) }
  | .mouse, [buttons,x₀,x₁,y₀,y₁,_] =>
    { t with pointer := some ⟨buttons,u16FromBeBytes x₁ x₀,u16FromBeBytes y₁ y₀⟩ }
  | _, _ => t

/-- A packet as the CH9329 takes it off the serial port. -/
def onPacket (t : Target) : List UInt8 → Target
  | [0x57,0xAB,_,0x02,_,modifier,_,k₁,k₂,k₃,k₄,k₅,k₆,_] =>
    { t with keyboard := some (modifier,[k₁,k₂,k₃,k₄,k₅,k₆]) }
  | [0x57,0xAB,_,0x04,_,buttons,x₀,x₁,y₀,y₁,_,_] =>
    { t with pointer := some ⟨buttons,u16FromBeBytes x₁ x₀,u16FromBeBytes y₁ y₀⟩ }
  | _ => t

end Target

theorem toUInt8_masked (v : UInt16) : (v &&& 0xff).toUInt8 = v.toUInt8 := by
  rw [UInt16.toUInt8_and]
  exact UInt8.and_neg_one

theorem u16FromBeBytes_masked (v : UInt16) :
    u16FromBeBytes ((v >>> 8) &&& 0xff).toUInt8 (v &&& 0xff).toUInt8 = v := by
  rw [toUInt8_masked,toUInt8_masked,Turn.u16FromBeBytes_toBe]

theorem onReport_mouse (t : Target) (buttons : UInt8) (x y : UInt16) (wheel : Int8) :
    t.onReport ⟨.mouse,makeAbsMouseReport buttons x y wheel⟩ = { t with pointer := some ⟨buttons,x,y⟩ } := by
  simp only [makeAbsMouseReport,Target.onReport,u16FromBeBytes_masked]

theorem onPacket_mouse (t : Target) (buttons : UInt8) (x y : UInt16) :
    t.onPacket (ch9329AbsMouse buttons x y) = { t with pointer := some ⟨buttons,x,y⟩ } := by
  have h := onReport_mouse t buttons x y 0
  rw [← h]
  rfl

theorem onPacket_keyboard (t : Target) (modifier k₁ k₂ k₃ k₄ k₅ k₆ : UInt8) :
    t.onPacket (ch9329Keyboard modifier [k₁,k₂,k₃,k₄,k₅,k₆]) =
      { t with keyboard := some (modifier,[k₁,k₂,k₃,k₄,k₅,k₆]) } := rfl

namespace BackEnds

/-- Both back ends, what their targets see, and the commands sent on, newest first. -/
structure State where
  gadget : Gadget
  ch9329 : Ch9329
  gadgetSeen : Target
  ch9329Seen : Target
  gadgetCommands : List VideoControl
  ch9329Commands : List VideoControl

def start : State := ⟨{ kbd := true, mouse := true },{},{},{},[],[]⟩

def step (s : State) (frame : Frame) : Option State :=
  let g := s.gadget.onFrame frame
  let p := s.ch9329.onFrame frame
  some
    { gadget := g.1
      ch9329 := p.1
      gadgetSeen := (g.2.report.map s.gadgetSeen.onReport).getD s.gadgetSeen
      ch9329Seen := (p.2.report.map s.ch9329Seen.onPacket).getD s.ch9329Seen
      gadgetCommands := g.2.command.toList ++ s.gadgetCommands
      ch9329Commands := p.2.command.toList ++ s.ch9329Commands }

def lastSet : List Frame → Pointer
  | [] => ⟨0,0x3fff,0x3fff⟩
  | frame :: frames => (lastSet frames).set (input frame)

def IsWheel (frame : Frame) : Prop := ∃ delta, input frame = .wheel delta

/-- The targets see the same, the commands are the same, and scrolling has changed neither buttons nor
position in either mode. -/
structure Agree (frames : List Frame) (s : State) : Prop where
  seen : s.gadgetSeen = s.ch9329Seen
  commands : s.gadgetCommands = s.ch9329Commands
  wheel : ∀ frame rest, frames = frame :: rest → IsWheel frame →
    s.gadgetSeen.pointer = some (lastSet rest) ∧ s.ch9329Seen.pointer = some (lastSet rest)

/-- What the target sees after an input, when a mouse report carries `p`. -/
def after (t : Target) (p : Pointer) : Input → Target
  | .keyboard modifier keys => { t with keyboard := some (modifier,keys) }
  | .move _ _ _ | .button _ | .wheel _ => { t with pointer := some p }
  | .control _ | .skipped => t

def gadgetPointer (g : Gadget) : Pointer := ⟨g.lastButtons,g.lastX,g.lastY⟩

/-- What a packet for the mouse carries: the buttons of the frame, and none when scrolling. -/
def ch9329Pointer (p : Ch9329) : Input → Pointer
  | .move buttons x y => ⟨buttons,x,y⟩
  | .button buttons => ⟨buttons,p.lastX,p.lastY⟩
  | _ => ⟨0,p.lastX,p.lastY⟩

theorem gadget_onInput (g : Gadget) (i : Input) :
    (g.onInput i).1.kbd = g.kbd ∧ (g.onInput i).1.mouse = g.mouse ∧
      gadgetPointer (g.onInput i).1 = (gadgetPointer g).set i := by
  cases i <;> exact ⟨rfl,rfl,rfl⟩

theorem ch9329_onInput (p : Ch9329) (pointer : Pointer) (h : p = ⟨pointer.x,pointer.y⟩) (i : Input) :
    (p.onInput i).1 = ⟨(pointer.set i).x,(pointer.set i).y⟩ := by
  cases i with
  | move buttons x y => rfl
  | _ => exact h

theorem gadget_seen (g : Gadget) (hkbd : g.kbd = true) (hmouse : g.mouse = true) (t : Target) (i : Input) :
    ((g.onInput i).2.report.map t.onReport).getD t = after t ((gadgetPointer g).set i) i := by
  obtain ⟨kbd,mouse,x,y,buttons⟩ := g
  cases hkbd
  cases hmouse
  cases i with
  | keyboard modifier keys => rfl
  | move buttons x y => exact onReport_mouse t buttons x y 0
  | button buttons => exact onReport_mouse t buttons x y 0
  | wheel delta => exact onReport_mouse t buttons x y delta.toInt8
  | control command => rfl
  | skipped => rfl

theorem ch9329_seen (p : Ch9329) (t : Target) (frame : Frame) :
    (((p.onInput (input frame)).2.report.map t.onPacket).getD t) =
      after t (ch9329Pointer p (input frame)) (input frame) := by
  match frame with
  | ty :: b₁ :: b₂ :: b₃ :: b₄ :: b₅ :: b₆ :: b₇ :: _ =>
    simp only [input]
    split_ifs
    · exact onPacket_keyboard t b₁ b₂ b₃ b₄ b₅ b₆ b₇
    · exact onPacket_mouse t b₁ _ _
    · exact onPacket_mouse t b₁ _ _
    · exact onPacket_mouse t 0 _ _
    · rfl
    · rfl
  | [] | [_] | [_,_] | [_,_,_] | [_,_,_,_] | [_,_,_,_,_] | [_,_,_,_,_,_] | [_,_,_,_,_,_,_] => rfl

structure Tracks (frames : List Frame) (s : State) : Prop where
  kbd : s.gadget.kbd = true
  mouse : s.gadget.mouse = true
  gadget : gadgetPointer s.gadget = lastSet frames
  ch9329 : s.ch9329 = ⟨(lastSet frames).x,(lastSet frames).y⟩

variable {frames : List Frame} {frame : Frame} {s s' : State}

theorem tracks (h : Run step start frames s) : Tracks frames s := by
  refine h.invariant ⟨rfl,rfl,rfl,rfl⟩ ?_
  intro frames s frame s' _ htracks hs
  cases Option.some.inj hs
  obtain ⟨hkbd,hmouse,hpointer⟩ := gadget_onInput s.gadget (input frame)
  have hch9329 := ch9329_onInput s.ch9329 (lastSet frames) htracks.ch9329 (input frame)
  rw [← Gadget.onFrame_eq] at hkbd hmouse hpointer
  rw [← Ch9329.onFrame_eq] at hch9329
  rw [htracks.gadget] at hpointer
  exact ⟨hkbd.trans htracks.kbd,hmouse.trans htracks.mouse,hpointer,hch9329⟩

theorem exists_run (frames : List Frame) : ∃ s, Run step start frames s := by
  induction frames with
  | nil => exact ⟨start,.init⟩
  | cons frame frames ih =>
    obtain ⟨s,hs⟩ := ih
    exact ⟨_,hs.next rfl⟩

/-- Only scrolling with a button down tells the two apart. -/
theorem after_ch9329_eq (t : Target) (pointer : Pointer) (i : Input) (hi : ∀ delta, i ≠ .wheel delta) :
    after t (ch9329Pointer ⟨pointer.x,pointer.y⟩ i) i = after t (pointer.set i) i := by
  cases i with
  | wheel delta => exact absurd rfl (hi delta)
  | _ => rfl

theorem step_spec (h : Tracks frames s) (hs : step s frame = some s') :
    s'.gadgetSeen = after s.gadgetSeen ((lastSet frames).set (input frame)) (input frame) ∧
      s'.ch9329Seen = after s.ch9329Seen
        (ch9329Pointer ⟨(lastSet frames).x,(lastSet frames).y⟩ (input frame)) (input frame) ∧
      s'.gadgetCommands = (command frame).toList ++ s.gadgetCommands ∧
      s'.ch9329Commands = (command frame).toList ++ s.ch9329Commands := by
  have hgadget := gadget_seen s.gadget h.kbd h.mouse s.gadgetSeen (input frame)
  have hch9329 := ch9329_seen s.ch9329 s.ch9329Seen frame
  rw [← Gadget.onFrame_eq,h.gadget] at hgadget
  rw [← Ch9329.onFrame_eq] at hch9329
  rw [← h.ch9329,← Gadget.onFrame_command s.gadget]
  cases Option.some.inj hs
  refine ⟨hgadget,hch9329,rfl,?_⟩
  rw [Gadget.onFrame_command,← Ch9329.onFrame_command s.ch9329]

theorem agree_step (h : Tracks frames s) (hagree : Agree frames s) (hs : step s frame = some s') :
    (IsWheel frame → (lastSet frames).buttons = 0) ↔ Agree (frame :: frames) s' := by
  obtain ⟨hgadget,hch9329,hcommands,hcommands'⟩ := step_spec h hs
  have hsame : s'.gadgetCommands = s'.ch9329Commands := by
    rw [hcommands,hcommands',hagree.commands]
  rw [← hagree.seen] at hch9329
  by_cases hwheel : IsWheel frame
  · obtain ⟨delta,hdelta⟩ := hwheel
    rw [hdelta] at hgadget hch9329
    change s'.gadgetSeen = { s.gadgetSeen with pointer := some (lastSet frames) } at hgadget
    change s'.ch9329Seen =
      { s.gadgetSeen with pointer := some ⟨0,(lastSet frames).x,(lastSet frames).y⟩ } at hch9329
    constructor
    · intro hbuttons
      have hzero : Pointer.mk 0 (lastSet frames).x (lastSet frames).y = lastSet frames := by
        rw [← hbuttons ⟨delta,hdelta⟩]
      have hseen : s'.gadgetSeen = s'.ch9329Seen := by
        rw [hgadget,hch9329,hzero]
      refine ⟨hseen,hsame,?_⟩
      rintro _ _ ⟨⟩ _
      exact ⟨by rw [hgadget],by rw [← hseen,hgadget]⟩
    · intro hagree' _
      have hseen := hagree'.seen
      rw [hgadget,hch9329] at hseen
      exact congrArg Pointer.buttons (Option.some.inj (congrArg Target.pointer hseen))
  · have hother : ∀ delta, input frame ≠ .wheel delta := fun delta hdelta => hwheel ⟨delta,hdelta⟩
    rw [after_ch9329_eq _ _ _ hother,← hgadget] at hch9329
    refine ⟨fun _ => ⟨hch9329.symm,hsame,?_⟩,fun _ hw => absurd hw hwheel⟩
    rintro _ _ ⟨⟩ hw
    exact absurd hw hwheel

/-- The two back ends agree after every frame exactly if nobody scrolls with a button held down. -/
theorem always_agree_iff (frames : List Frame) :
    Always step start Agree frames ↔
      ∀ frame rest, frame :: rest <:+ frames → IsWheel frame → (lastSet rest).buttons = 0 := by
  induction frames with
  | nil =>
    constructor
    · intro _ frame rest hsuf
      exact absurd (List.suffix_nil.mp hsuf) (List.cons_ne_nil _ _)
    · intro _
      exact always_nil.mpr ⟨rfl,rfl,fun _ _ h => nomatch h⟩
  | cons frame frames ih =>
    obtain ⟨s,hs⟩ := exists_run frames
    obtain ⟨s',hs'⟩ : ∃ s', step s frame = some s' := ⟨_,rfl⟩
    rw [always_cons (hs.next hs'),ih]
    constructor
    · rintro ⟨hbefore,hlast⟩ f rest hsuf hf
      have hagree := (ih.mpr hbefore).here hs
      rcases List.suffix_cons_iff.mp hsuf with heq | hsuf
      · cases heq
        exact (agree_step (tracks hs) hagree hs').mpr hlast hf
      · exact hbefore f rest hsuf hf
    · intro h
      have hbefore : ∀ f rest, f :: rest <:+ frames → IsWheel f → (lastSet rest).buttons = 0 :=
        fun f rest hsuf => h f rest (hsuf.trans (List.suffix_cons frame frames))
      have hagree := (ih.mpr hbefore).here hs
      exact ⟨hbefore,(agree_step (tracks hs) hagree hs').mp (h frame frames (List.suffix_refl _))⟩

/-- A button is pressed at the start position, and the wheel is turned: the CH9329 lets go of it. -/
theorem scrolling_releases_button :
    ¬ ∀ frames s, Run step start frames s → Agree frames s := by
  intro h
  obtain ⟨s,hrun,hp⟩ := exists_run_of_replay step start
    [[0x03,0x01,0,0,0,0,0,0],[0x04,0x01,0,0,0,0,0,0]]
    (fun s => s.gadgetSeen.pointer = some ⟨1,0x3fff,0x3fff⟩ ∧ s.ch9329Seen.pointer = some ⟨0,0x3fff,0x3fff⟩)
    (by decide)
  obtain ⟨hgadget,hch9329⟩ := of_decide_eq_true hp
  have hseen := congrArg Target.pointer (h _ s hrun).seen
  rw [hgadget,hch9329] at hseen
  exact absurd hseen (by decide)

end BackEnds
end Hid
end AnyKvm
