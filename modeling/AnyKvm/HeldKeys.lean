import AnyKvm.AgentSession

/-! What the USB host sees held down when a session is over.
The HID thread of the gadget mode outlives the sessions. Nothing but frames of the data
channel makes it write a report, so the last reports are those of the last frames handled. -/
namespace AnyKvm
namespace HeldKeys

open Transition Hid Agent

/-- `keyboard` and `mouse` hold the last report written to each device. -/
structure State (Sdp Cand : Type*) where
  session : Session Sdp Cand
  hidQueue : BoundedQueue Frame 64
  gadget : Gadget
  keyboard : Option (List UInt8)
  mouse : Option (List UInt8)

/-- At the start of the agent, with those devices open that could be opened. -/
def State.start {Sdp Cand : Type*} (kbd mouse : Bool) : State Sdp Cand where
  session := .start false false
  hidQueue := .empty
  gadget := { kbd := kbd, mouse := mouse }
  keyboard := none
  mouse := none

/-- `handle` is one pass of the frame loop of `runGadget`, with the outcome of the write; `restart`
is the next round of the loop in `main`. -/
inductive Action (Raw : Type*)
  | session (a : Agent.Action Raw)
  | handle (frame : Frame) (written : Bool)
  | restart
  deriving DecidableEq

section Machine
variable {Raw Sdp Cand : Type*} (fromStr : Raw → Option (SignalMsg Sdp Cand)) (accepts : Sdp → Bool)

namespace State
variable (s : State Sdp Cand)

/-- `hid_tx.send` comes back once there is room for the frame. -/
def hidSent : Option (State Sdp Cand) :=
  match s.session.webrtc with
  | .sendHid data => (s.hidQueue.push? data).map fun queue =>
      { s with hidQueue := queue, session := { s.session with webrtc := .poll } }
  | _ => none

def write (report : Option Report) (written : Bool) : State Sdp Cand :=
  match report, written with
  | some ⟨.keyboard,bytes⟩, true => { s with keyboard := some bytes }
  | some ⟨.mouse,bytes⟩, true => { s with mouse := some bytes }
  | _, _ => s

def handle (frame : Frame) (written : Bool) : Option (State Sdp Cand) :=
  match s.hidQueue.pop? with
  | some (next,queue) =>
    if next = frame then
      let r := s.gadget.onFrame frame
      some (({ s with hidQueue := queue, gadget := r.1 } : State Sdp Cand).write r.2.report written)
    else none
  | none => none

def restart : Option (State Sdp Cand) :=
  if s.session.webrtc = .ended ∧ s.session.signal.isEnded = true then
    some { s with session := .start s.session.peerConnected s.session.keyframe }
  else none

end State

def step (s : State Sdp Cand) : Action Raw → Option (State Sdp Cand)
  | .session .hidSent => s.hidSent
  | .session a => (Agent.step fromStr accepts s.session a).map fun session => { s with session := session }
  | .handle frame written => s.handle frame written
  | .restart => s.restart

/-- No key and no modifier in the last keyboard report, and no button in the last mouse report. -/
structure Released (s : State Sdp Cand) : Prop where
  keyboard : ∀ bytes, s.keyboard = some bytes → bytes = List.replicate 8 0
  mouse : ∀ bytes, s.mouse = some bytes → bytes.head? = some 0

/-- The session is over and the HID thread has caught up. -/
def Quiet (s : State Sdp Cand) : Prop := s.session.webrtc = .ended ∧ s.hidQueue.items = []

def handled : List (Action Raw) → List (Frame × Bool)
  | [] => []
  | .handle frame written :: as => (frame,written) :: handled as
  | _ :: as => handled as

/-- Modifiers and keys of a keyboard frame. -/
def keys? : Frame → Option (List UInt8)
  | ty :: b₁ :: b₂ :: b₃ :: b₄ :: b₅ :: b₆ :: b₇ :: _ =>
    if ty = typeKeyboard then some [b₁,b₂,b₃,b₄,b₅,b₆,b₇] else none
  | _ => none

/-- The buttons that a frame sets, and whether it is one of the mouse at all. -/
def buttons? : Frame → Option UInt8 × Bool
  | ty :: b₁ :: _ :: _ :: _ :: _ :: _ :: _ :: _ =>
    if ty = typeMouseMove ∨ ty = typeMouseBtn then (some b₁,true)
    else (none,ty = typeMouseWheel)
  | _ => (none,false)

def lastKeys : List (Frame × Bool) → Option (List UInt8)
  | [] => none
  | (frame,written) :: fs => if written then (keys? frame).or (lastKeys fs) else lastKeys fs

/-- The buttons that the frames have set last, whether or not a report got through. -/
def heldButtons : List (Frame × Bool) → UInt8
  | [] => 0
  | (frame,_) :: fs => (buttons? frame).1.getD (heldButtons fs)

def lastButtons : List (Frame × Bool) → Option UInt8
  | [] => none
  | (frame,written) :: fs =>
    if written && (buttons? frame).2 then some (heldButtons ((frame,written) :: fs)) else lastButtons fs

/-- The last frames that got through to the open devices hold nothing down. -/
structure EndsReleased (g : Gadget) (fs : List (Frame × Bool)) : Prop where
  keyboard : g.kbd = true → ∀ keys, lastKeys fs = some keys → keys = List.replicate 7 0
  mouse : g.mouse = true → ∀ buttons, lastButtons fs = some buttons → buttons = 0

def keyboardBytes : List UInt8 → List UInt8
  | modifier :: keys => modifier :: 0x00 :: keys
  | [] => []

theorem onFrame_report (g : Gadget) (frame : Frame) :
    (∃ keys, keys? frame = some keys ∧ buttons? frame = (none,false) ∧
      (g.onFrame frame).2.report = g.kbdReport (keyboardBytes keys)) ∨
    keys? frame = none ∧ (buttons? frame).2 = true ∧
      (∃ wheel, (g.onFrame frame).2.report = (g.onFrame frame).1.mouseReport wheel) ∨
    keys? frame = none ∧ (buttons? frame).2 = false ∧ (g.onFrame frame).2.report = none := by
  match frame with
  | ty :: b₁ :: b₂ :: b₃ :: b₄ :: b₅ :: b₆ :: b₇ :: _ =>
    by_cases h₁ : ty = typeKeyboard
    · subst h₁
      exact .inl ⟨_,rfl,rfl,rfl⟩
    by_cases h₂ : ty = typeMouseMove
    · subst h₂
      exact .inr (.inl ⟨rfl,rfl,0,rfl⟩)
    by_cases h₃ : ty = typeMouseBtn
    · subst h₃
      exact .inr (.inl ⟨rfl,rfl,0,rfl⟩)
    by_cases h₄ : ty = typeMouseWheel
    · subst h₄
      exact .inr (.inl ⟨rfl,rfl,b₁.toInt8,rfl⟩)
    refine .inr (.inr ?_)
    simp only [keys?,buttons?,Gadget.onFrame,h₁,h₂,h₃,h₄,if_false,or_self,decide_false,true_and]
    split <;> rfl
  | [] | [_] | [_,_] | [_,_,_] | [_,_,_,_] | [_,_,_,_,_] | [_,_,_,_,_,_] | [_,_,_,_,_,_,_] =>
    exact .inr (.inr ⟨rfl,rfl,rfl⟩)

theorem onFrame_gadget (g : Gadget) (frame : Frame) :
    (g.onFrame frame).1.kbd = g.kbd ∧ (g.onFrame frame).1.mouse = g.mouse ∧
      (g.onFrame frame).1.lastButtons = (buttons? frame).1.getD g.lastButtons := by
  match frame with
  | ty :: b₁ :: b₂ :: b₃ :: b₄ :: b₅ :: b₆ :: b₇ :: _ =>
    by_cases h₁ : ty = typeKeyboard
    · subst h₁
      exact ⟨rfl,rfl,rfl⟩
    by_cases h₂ : ty = typeMouseMove
    · subst h₂
      exact ⟨rfl,rfl,rfl⟩
    by_cases h₃ : ty = typeMouseBtn
    · subst h₃
      exact ⟨rfl,rfl,rfl⟩
    simp only [buttons?,Gadget.onFrame,h₁,h₂,h₃,if_false,or_self]
    split_ifs <;> exact ⟨rfl,rfl,rfl⟩
  | [] | [_] | [_,_] | [_,_,_] | [_,_,_,_] | [_,_,_,_,_] | [_,_,_,_,_,_] | [_,_,_,_,_,_,_] =>
    exact ⟨rfl,rfl,rfl⟩

variable {fromStr accepts} {as : List (Action Raw)} {s s' : State Sdp Cand} {a : Action Raw} {g : Gadget}
variable {fs : List (Frame × Bool)}

/-- The devices and the gadget agree with the frames handled so far. -/
structure Agrees (g : Gadget) (fs : List (Frame × Bool)) (s : State Sdp Cand) : Prop where
  kbd : s.gadget.kbd = g.kbd
  mouse : s.gadget.mouse = g.mouse
  buttons : s.gadget.lastButtons = heldButtons fs
  keyboardReport : s.keyboard = if g.kbd then (lastKeys fs).map keyboardBytes else none
  mouseReport : s.mouse.map List.head? = if g.mouse then (lastButtons fs).map some else none

theorem Agrees.congr (h : Agrees g fs s) (hgadget : s'.gadget = s.gadget) (hkeyboard : s'.keyboard = s.keyboard)
    (hmouse : s'.mouse = s.mouse) : Agrees g fs s' :=
  ⟨hgadget ▸ h.kbd,hgadget ▸ h.mouse,hgadget ▸ h.buttons,hkeyboard ▸ h.keyboardReport,hmouse ▸ h.mouseReport⟩

theorem write_gadget (report : Option Report) (written : Bool) : (s.write report written).gadget = s.gadget := by
  unfold State.write
  split <;> rfl

theorem Agrees.handle (h : Agrees g fs s) {frame : Frame} {written : Bool} (queue : BoundedQueue Frame 64) :
    Agrees g ((frame,written) :: fs)
      (({ s with hidQueue := queue, gadget := (s.gadget.onFrame frame).1 } : State Sdp Cand).write
        (s.gadget.onFrame frame).2.report written) := by
  obtain ⟨hkbd,hmouse,hbuttons⟩ := onFrame_gadget s.gadget frame
  have hheld : (s.gadget.onFrame frame).1.lastButtons = heldButtons ((frame,written) :: fs) := by
    rw [hbuttons,h.buttons]
    rfl
  have hkbd' : (s.gadget.onFrame frame).1.kbd = g.kbd := hkbd.trans h.kbd
  have hmouse' : (s.gadget.onFrame frame).1.mouse = g.mouse := hmouse.trans h.mouse
  refine ⟨?_,?_,?_,?_,?_⟩
  · rwa [write_gadget]
  · rwa [write_gadget]
  · rwa [write_gadget]
  · rcases onFrame_report s.gadget frame with ⟨keys,hkeys,_,hreport⟩ | ⟨hkeys,_,wheel,hreport⟩ | ⟨hkeys,_,hreport⟩
    · rw [hreport,Gadget.kbdReport,h.kbd]
      cases written <;> cases hg : g.kbd <;>
        simp [State.write,lastKeys,hkeys,h.keyboardReport,hg]
    · rw [hreport,Gadget.mouseReport,hmouse']
      cases written <;> cases g.mouse <;> simp [State.write,lastKeys,hkeys,h.keyboardReport]
    · rw [hreport]
      cases written <;> simp [State.write,lastKeys,hkeys,h.keyboardReport]
  · rcases onFrame_report s.gadget frame with
      ⟨keys,_,hmove,hreport⟩ | ⟨_,hmove,wheel,hreport⟩ | ⟨_,hmove,hreport⟩
    · rw [hreport,Gadget.kbdReport,h.kbd]
      cases written <;> cases g.kbd <;> simp [State.write,lastButtons,hmove,h.mouseReport]
    · rw [hreport,Gadget.mouseReport,hmouse',hheld]
      cases written <;> cases hg : g.mouse <;>
        simp [State.write,lastButtons,hmove,h.mouseReport,hg,makeAbsMouseReport]
    · rw [hreport]
      cases written <;> simp [State.write,lastButtons,hmove,h.mouseReport]

theorem Agrees.step (h : Agrees g (handled as) s) (hs : step fromStr accepts s a = some s') :
    Agrees g (handled (a :: as)) s' := by
  cases a with
  | session a =>
    cases a with
    | hidSent =>
      simp only [HeldKeys.step,State.hidSent] at hs
      split at hs
      · obtain ⟨queue,_,rfl⟩ := Option.map_eq_some_iff.mp hs
        exact h.congr rfl rfl rfl
      · cases hs
    | _ =>
      obtain ⟨session,_,rfl⟩ := Option.map_eq_some_iff.mp hs
      exact h.congr rfl rfl rfl
  | handle frame written =>
    simp only [HeldKeys.step,State.handle] at hs
    split at hs
    · split at hs
      · cases hs
        exact h.handle _
      · cases hs
    · cases hs
  | restart =>
    simp only [HeldKeys.step,State.restart] at hs
    split at hs
    · cases hs
      exact h.congr rfl rfl rfl
    · cases hs

variable {kbd mouse : Bool}

theorem agrees (h : Run (step fromStr accepts) (.start kbd mouse) as s) :
    Agrees { kbd := kbd, mouse := mouse } (handled as) s := by
  refine h.invariant (P := fun as s => Agrees _ (handled as) s) ?_ ?_
  · exact ⟨rfl,rfl,rfl,by simp [State.start,handled,lastKeys],by simp [State.start,handled,lastButtons]⟩
  · intro as s a s' _ hagrees hs
    exact hagrees.step hs

theorem keyboardBytes_eq_zero (keys : List UInt8) :
    keyboardBytes keys = List.replicate 8 0 ↔ keys = List.replicate 7 0 := by
  cases keys with
  | nil => simp [keyboardBytes]
  | cons modifier keys => simp [keyboardBytes,List.replicate]

theorem Agrees.released_iff (h : Agrees g fs s) : Released s ↔ EndsReleased g fs := by
  constructor
  · intro hreleased
    refine ⟨fun hkbd keys hkeys => ?_,fun hmouse buttons hbuttons => ?_⟩
    · have hkeyboard := h.keyboardReport
      rw [hkbd,if_pos rfl,hkeys] at hkeyboard
      exact (keyboardBytes_eq_zero keys).mp (hreleased.keyboard _ hkeyboard)
    · have hreport := h.mouseReport
      rw [hmouse,if_pos rfl,hbuttons] at hreport
      obtain ⟨bytes,hbytes,hhead⟩ := Option.map_eq_some_iff.mp hreport
      rw [hreleased.mouse bytes hbytes] at hhead
      exact (Option.some.inj hhead).symm
  · intro hends
    refine ⟨fun bytes hbytes => ?_,fun bytes hbytes => ?_⟩
    · have hkeyboard := h.keyboardReport
      rw [hbytes] at hkeyboard
      split at hkeyboard
      · rename_i hkbd
        obtain ⟨keys,hkeys,rfl⟩ := Option.map_eq_some_iff.mp hkeyboard.symm
        exact (keyboardBytes_eq_zero keys).mpr (hends.keyboard hkbd keys hkeys)
      · cases hkeyboard
    · have hreport := h.mouseReport
      rw [hbytes] at hreport
      split at hreport
      · rename_i hmouse
        obtain ⟨buttons,hbuttons,hhead⟩ := Option.map_eq_some_iff.mp hreport.symm
        rw [← hhead,hends.mouse hmouse buttons hbuttons]
      · cases hreport

/-- Whenever a session is over and its frames are handled, nothing is held down exactly if the last
frames that got through to the devices hold nothing down. -/
theorem always_released_iff (as : List (Action Raw)) :
    Always (step fromStr accepts) (.start kbd mouse) (fun _ s => Quiet s → Released s) as ↔
      Always (step fromStr accepts) (.start kbd mouse)
        (fun as s => Quiet s → EndsReleased { kbd := kbd, mouse := mouse } (handled as)) as := by
  constructor
  · intro h as' s hsuf hrun hquiet
    exact (agrees hrun).released_iff.mp (h as' s hsuf hrun hquiet)
  · intro h as' s hsuf hrun hquiet
    exact (agrees hrun).released_iff.mpr (h as' s hsuf hrun hquiet)

end Machine

abbrev textStep : State String String → Action (SignalMsg String String) → Option (State String String) :=
  step some fun _ => true

/-- A browser connects, presses the key A and is gone. -/
def vanishingBrowser : List (Action (SignalMsg String String)) :=
  [.session (.gather true),.session .recvOffer,.session (.connect true),.session (.sendOffer true),
    .session (.read (.text ⟨"answer",some "v=0",none⟩)),.session .sent,.session .recvAnswer,
    .session (.checkAlive true),.session .candsDone,.session (.event .connected),
    .session (.event (.channelData [0x01,0,0x04,0,0,0,0,0])),.session .hidSent,
    .handle [0x01,0,0x04,0,0,0,0,0] true,.session (.event (.iceConnectionStateChange .disconnected))]

/-- The key stays down on the device. -/
theorem vanishing_browser_leaves_key :
    ¬ ∀ as s, Run textStep (.start true true) as s → Quiet s → Released s := by
  intro h
  obtain ⟨s,hrun,hp⟩ := exists_run_of_replay textStep (.start true true) vanishingBrowser
    (fun s => (s.session.webrtc = .ended ∧ s.hidQueue.items = []) ∧ s.keyboard = some [0,0,4,0,0,0,0,0])
    (by decide)
  obtain ⟨hquiet,hkeyboard⟩ := of_decide_eq_true hp
  exact absurd ((h _ s hrun hquiet).keyboard _ hkeyboard) (by decide)

end HeldKeys
end AnyKvm
