import AnyKvm.BootKeyboard
import AnyKvm.HeldKeys
import AnyKvm.QuickActions

/-! `app.js`: when the page listens to keyboard and mouse, and what the target holds when it stops listening.
Quick actions and typed texts write to the same channel, and their timers fire in any order. -/
namespace AnyKvm
namespace Capture

open Transition
open Browser (HidState Motion Event Hold Typing onEvent sendKeyboard sendMouseButtons typed released runGadget reportOf)
open Hid (Frame Gadget)

inductive Target
  | mouseCapture | document
  deriving DecidableEq

inductive Kind
  | click | mousemove | mousedown | mouseup | wheel | contextmenu | keydown | keyup
  deriving DecidableEq

/-- A listener is registered for one target and one kind of event only; `escape` is the anonymous one. -/
inductive Listener
  | activateCapture | escape
  | onMouseMove | onMouseDown | onMouseUp | onWheel | onContextMenu | onKeyDown | onKeyUp
  deriving DecidableEq

def Listener.target : Listener → Target
  | .escape | .onKeyDown | .onKeyUp => .document
  | _ => .mouseCapture

def Listener.kind : Listener → Kind
  | .activateCapture => .click
  | .escape | .onKeyDown => .keydown
  | .onKeyUp => .keyup
  | .onMouseMove => .mousemove
  | .onMouseDown => .mousedown
  | .onMouseUp => .mouseup
  | .onWheel => .wheel
  | .onContextMenu => .contextmenu

/-- What the user does. `key` is what a key means in the layout of the user, and `code` is where it sits. -/
inductive Input
  | click
  | mousemove (m : Motion)
  | mousedown (button : ℤ)
  | mouseup (button : ℤ)
  | wheel (deltaY : ℚ)
  | contextmenu
  | keydown (key code : String)
  | keyup (key code : String)
  deriving DecidableEq

namespace Input

def target : Input → Target
  | .keydown _ _ | .keyup _ _ => .document
  | _ => .mouseCapture

def kind : Input → Kind
  | .click => .click
  | .mousemove _ => .mousemove
  | .mousedown _ => .mousedown
  | .mouseup _ => .mouseup
  | .wheel _ => .wheel
  | .contextmenu => .contextmenu
  | .keydown _ _ => .keydown
  | .keyup _ _ => .keyup

/-- What the handlers read from an event; the context menu is just suppressed. -/
def event? : Input → Option Event
  | .mousemove m => some (.mouseMove m)
  | .mousedown button => some (.mouseDown button)
  | .mouseup button => some (.mouseUp button)
  | .wheel deltaY => some (.wheel deltaY)
  | .keydown _ code => some (.keyDown code)
  | .keyup _ code => some (.keyUp code)
  | .click | .contextmenu => none

def isEscape : Input → Bool
  | .keydown key _ => key = "Escape"
  | _ => false

end Input

inductive ReadyState
  | connecting | opened | closing | closed
  deriving DecidableEq

def ReadyState.rank : ReadyState → ℕ
  | .connecting => 0
  | .opened => 1
  | .closing => 2
  | .closed => 3

/-- `sent` holds the frames that went out, newest first. -/
structure DataChannel where
  readyState : ReadyState := .connecting
  sent : List Frame := []
  deriving DecidableEq

def DataChannel.send (dc : DataChannel) (frame : Frame) : DataChannel :=
  if dc.readyState = .opened then { dc with sent := frame :: dc.sent } else dc

/-- The listeners that are registered when the page loads, and those of an active capture. -/
def permanent : List Listener := [.activateCapture,.escape]

def captured : List Listener :=
  [.onMouseMove,.onMouseDown,.onMouseUp,.onWheel,.onContextMenu,.onKeyDown,.onKeyUp]

/-- `releases` counts the timers that are going to release a key. -/
structure State where
  captureActive : Bool := false
  listeners : List Listener := permanent
  hid : HidState := {}
  dc : Option DataChannel := none
  releases : ℕ := 0
  typing : List Typing := []
  deriving DecidableEq

namespace State
variable (s : State)

def isOpen : Bool := s.dc.any fun dc => dc.readyState = .opened

def sendHid (frame : Frame) : State := { s with dc := s.dc.map fun dc => dc.send frame }

/-- A listener that is registered already stays where it is. -/
def addEventListener (l : Listener) : State :=
  if l ∈ s.listeners then s else { s with listeners := s.listeners ++ [l] }

def removeEventListener (l : Listener) : State := { s with listeners := s.listeners.erase l }

def activateCapture : State :=
  if s.captureActive then s
  else captured.foldl addEventListener { s with captureActive := true }

def deactivateCapture : State :=
  if s.captureActive = false then s
  else
    captured.foldl removeEventListener
      ((({ s with captureActive := false, hid := {} } : State).sendHid (sendKeyboard {})).sendHid (sendMouseButtons {}))

def handle (event : Event) : State :=
  let r := onEvent s.hid event
  r.2.elim { s with hid := r.1 } ({ s with hid := r.1 } : State).sendHid

def call (e : Input) : Listener → State
  | .activateCapture => s.activateCapture
  | .escape => if e.isEscape = true ∧ s.captureActive = true then s.deactivateCapture else s
  | _ => e.event?.elim s s.handle

/-- The listeners of an event run in the order of their registration, except those that an earlier one of them
has removed. -/
def dispatch (e : Input) : State :=
  (s.listeners.filter fun l => l.target = e.target ∧ l.kind = e.kind).foldl
    (fun s l => if l ∈ s.listeners then s.call e l else s) s

def reset : State := { s.deactivateCapture with dc := none, hid := {} }

/-- The report of an action, with its timer. -/
def press (hold : Hold) : State :=
  ({ s with releases := s.releases + 1 } : State).sendHid [0x01,hold.modifiers,hold.key,0,0,0,0,0]

def release : Option State :=
  if s.releases = 0 then none else some (({ s with releases := s.releases - 1 } : State).sendHid released)

/-- The text is over, or its next character is pressed if it has a key. -/
def tick (run : ℕ) : Option State :=
  s.typing[run]?.map fun t =>
    let unit? := if s.isOpen then t.text[t.i]? else none
    match unit? with
    | none => ({ s with typing := s.typing.eraseIdx run } : State).sendHid released
    | some unit =>
      let s : State := { s with typing := s.typing.set run { t with i := t.i + 1 } }
      match typed unit with
      | some hold => s.press hold
      | none => s

/-- A channel never goes back to an earlier state. -/
def proceed (readyState : ReadyState) : Option State :=
  s.dc.bind fun dc =>
    if dc.readyState.rank < readyState.rank then some { s with dc := some { dc with readyState := readyState } }
    else none

end State

/-- `reset` is what both a new connection and the end of one begin with; `proceed` is the channel itself. -/
inductive Action
  | input (e : Input)
  | ondatachannel
  | proceed (readyState : ReadyState)
  | reset
  | changeResolution (w h : ℕ)
  | changeFps (fps : ℕ)
  | sendKeyCombo (hold : Hold)
  | release
  | typeText (text : List UInt16)
  | tick (run : ℕ)
  deriving DecidableEq

def step (s : State) : Action → Option State
  | .input e => some (s.dispatch e)
  | .ondatachannel => some { s with dc := some {} }
  | .proceed readyState => s.proceed readyState
  | .reset => some s.reset
  | .changeResolution w h => some (s.handle (.changeResolution w h))
  | .changeFps fps => some (s.handle (.changeFps fps))
  | .sendKeyCombo hold => some (if s.isOpen then s.press hold else s)
  | .release => s.release
  | .typeText text => some (if text ≠ [] ∧ s.isOpen = true then { s with typing := s.typing ++ [⟨text,0⟩] } else s)
  | .tick run => s.tick run

/-- The last report that the frames of a channel have led to. -/
def lastReport (device : Hid.Device) (frames : List Frame) : Option (List UInt8) :=
  ((runGadget frames).2.filterMap (reportOf device)).head?

def KeysUp (frames : List Frame) : Prop :=
  ∀ report, lastReport .keyboard frames = some report → report = BootKeyboard.idle

/-- No button is down, nor will be with the next turn of the wheel. -/
def ButtonsUp (frames : List Frame) : Prop :=
  (runGadget frames).1.lastButtons = 0 ∧ ∀ report, lastReport .mouse frames = some report → report.head? = some 0

def State.Sent (s : State) (P : List Frame → Prop) : Prop :=
  ∀ dc, s.dc = some dc → dc.readyState = .opened → P dc.sent

/-- What holds of every state. While nothing is captured, the timers are all that may hold a key. -/
structure Settled (s : State) : Prop where
  listeners : s.listeners = if s.captureActive then permanent ++ captured else permanent
  hid : s.captureActive = false → s.hid = {}
  unsent : ∀ dc, s.dc = some dc → dc.readyState = .connecting → dc.sent = []
  keys : s.captureActive = false → s.releases = 0 → s.typing = [] → s.Sent KeysUp
  buttons : s.captureActive = false → s.Sent ButtonsUp

variable {frames : List Frame} {frame : Frame} {s s' : State} {P : List Frame → Prop}

theorem lastReport_cons (device : Hid.Device) (frame : Frame) (frames : List Frame) :
    lastReport device (frame :: frames) =
      (reportOf device ((runGadget frames).1.onFrame frame).2).or (lastReport device frames) := by
  unfold lastReport
  rw [runGadget,List.filterMap_cons]
  cases reportOf device ((runGadget frames).1.onFrame frame).2 <;> rfl

theorem devices (frames : List Frame) : (runGadget frames).1.kbd = true ∧ (runGadget frames).1.mouse = true := by
  induction frames with
  | nil => exact ⟨rfl,rfl⟩
  | cons frame frames ih =>
    have hframe := HeldKeys.onFrame_gadget (runGadget frames).1 frame
    exact ⟨hframe.1.trans ih.1,hframe.2.1.trans ih.2⟩

theorem keysUp_released (frames : List Frame) : KeysUp (released :: frames) := by
  intro report h
  have hreport : reportOf .keyboard ((runGadget frames).1.onFrame released).2 = some BootKeyboard.idle := by
    change reportOf .keyboard { report := (runGadget frames).1.kbdReport BootKeyboard.idle } = _
    rw [Gadget.kbdReport,(devices frames).1]
    rfl
  rw [lastReport_cons,hreport] at h
  exact (Option.some.inj h).symm

theorem KeysUp.cons (h : KeysUp frames) (hframe : ∀ g : Gadget, reportOf .keyboard (g.onFrame frame).2 = none) :
    KeysUp (frame :: frames) := by
  intro report hreport
  rw [lastReport_cons,hframe] at hreport
  exact h report hreport

theorem ButtonsUp.cons (h : ButtonsUp frames)
    (hframe : ∀ g : Gadget, (g.onFrame frame).1 = g ∧ reportOf .mouse (g.onFrame frame).2 = none) :
    ButtonsUp (frame :: frames) := by
  refine ⟨?_,fun report hreport => ?_⟩
  · rw [runGadget,(hframe _).1]
    exact h.1
  · rw [lastReport_cons,(hframe _).2] at hreport
    exact h.2 report hreport

theorem buttonsUp_sendMouseButtons (frames : List Frame) : ButtonsUp (sendMouseButtons {} :: frames) := by
  refine ⟨rfl,fun report h => ?_⟩
  have hreport : reportOf .mouse ((runGadget frames).1.onFrame (sendMouseButtons {})).2 =
      some (Hid.makeAbsMouseReport 0 (runGadget frames).1.lastX (runGadget frames).1.lastY 0) := by
    change reportOf .mouse { report := ({ (runGadget frames).1 with lastButtons := 0 } : Gadget).mouseReport 0 } = _
    rw [Gadget.mouseReport,(devices frames).2]
    rfl
  rw [lastReport_cons,hreport] at h
  cases h
  rfl

theorem keysUp_nil : KeysUp [] := fun _ h => nomatch h

theorem buttonsUp_nil : ButtonsUp [] := ⟨rfl,fun _ h => nomatch h⟩

theorem keyboard_frame (a b c d e f i : UInt8) (g : Gadget) :
    (g.onFrame [0x01,a,b,c,d,e,f,i]).1 = g ∧ reportOf .mouse (g.onFrame [0x01,a,b,c,d,e,f,i]).2 = none := by
  refine ⟨rfl,?_⟩
  change reportOf .mouse { report := g.kbdReport [a,0x00,b,c,d,e,f,i] } = none
  unfold Gadget.kbdReport
  split <;> rfl

theorem control_frame (a b c d e f i : UInt8) (g : Gadget) :
    (g.onFrame [0x10,a,b,c,d,e,f,i]).1 = g ∧
      ∀ device, reportOf device (g.onFrame [0x10,a,b,c,d,e,f,i]).2 = none :=
  ⟨rfl,fun _ => rfl⟩

theorem sent_sendHid : (s.sendHid frame).Sent P ↔ s.Sent fun frames => P (frame :: frames) := by
  constructor
  · intro h dc hdc hopen
    have hsent := h (dc.send frame) (by rw [State.sendHid,hdc,Option.map_some])
    rw [DataChannel.send,if_pos hopen] at hsent
    exact hsent hopen
  · intro h dc hdc hopen
    obtain ⟨before,hbefore,rfl⟩ := Option.map_eq_some_iff.mp hdc
    unfold DataChannel.send at hopen ⊢
    split
    next hready => exact h before hbefore hready
    next hready =>
      rw [if_neg hready] at hopen
      exact absurd hopen hready

theorem unsent_sendHid (h : ∀ dc, s.dc = some dc → dc.readyState = .connecting → dc.sent = []) :
    ∀ dc, (s.sendHid frame).dc = some dc → dc.readyState = .connecting → dc.sent = [] := by
  intro dc hdc hconnecting
  obtain ⟨before,hbefore,rfl⟩ := Option.map_eq_some_iff.mp hdc
  unfold DataChannel.send at hconnecting ⊢
  split
  next hready =>
    rw [if_pos hready,hready] at hconnecting
    cases hconnecting
  next hready =>
    rw [if_neg hready] at hconnecting
    exact h before hbefore hconnecting

theorem State.Sent.mono {Q : List Frame → Prop} (h : s.Sent P) (himp : ∀ frames, P frames → Q frames) : s.Sent Q :=
  fun dc hdc hopen => himp _ (h dc hdc hopen)

theorem sent_none (h : s.dc = none) : s.Sent P := fun _ hdc => absurd (hdc.symm.trans h) (Option.some_ne_none _)

theorem sent_of_forall (h : ∀ frames, P frames) : s.Sent P := fun dc _ _ => h dc.sent

theorem foldl_addEventListener (ls : List Listener) (s : State) :
    ls.foldl State.addEventListener s =
      { s with
        listeners := ls.foldl (fun registered l => if l ∈ registered then registered else registered ++ [l])
          s.listeners } := by
  induction ls generalizing s with
  | nil => rfl
  | cons l ls ih =>
    rw [List.foldl_cons,ih,State.addEventListener,List.foldl_cons]
    split <;> rfl

theorem foldl_removeEventListener (ls : List Listener) (s : State) :
    ls.foldl State.removeEventListener s = { s with listeners := ls.foldl List.erase s.listeners } := by
  induction ls generalizing s with
  | nil => rfl
  | cons l ls ih => rw [List.foldl_cons,ih,List.foldl_cons,State.removeEventListener]

theorem activateCapture_eq (h : Settled s) :
    s.activateCapture = { s with captureActive := true, listeners := permanent ++ captured } := by
  have hlisteners := h.listeners
  unfold State.activateCapture
  split at hlisteners
  next hactive =>
    rw [if_pos hactive,← hlisteners,← hactive]
  next hactive =>
    rw [if_neg hactive,foldl_addEventListener,hlisteners]
    rfl

/-- What `deactivateCapture` does to an active capture. -/
def State.letGo (s : State) : State :=
  (({ s with captureActive := false, listeners := permanent, hid := {} } : State).sendHid released).sendHid
    (sendMouseButtons {})

theorem deactivateCapture_inactive (h : s.captureActive = false) : s.deactivateCapture = s := if_pos h

theorem deactivateCapture_active (h : Settled s) (hactive : s.captureActive = true) :
    s.deactivateCapture = s.letGo := by
  have hlisteners := h.listeners
  rw [if_pos hactive] at hlisteners
  rw [State.deactivateCapture,if_neg (by rw [hactive]; exact Bool.noConfusion),foldl_removeEventListener]
  change ({ s.letGo with listeners := captured.foldl List.erase s.listeners } : State) = s.letGo
  rw [hlisteners]
  rfl

theorem letGo_keysUp (s : State) : s.letGo.Sent KeysUp := by
  refine sent_sendHid.mpr (sent_sendHid.mpr (sent_of_forall fun frames => ?_))
  refine (keysUp_released frames).cons fun g => ?_
  change reportOf .keyboard { report := ({ g with lastButtons := 0 } : Gadget).mouseReport 0 } = none
  unfold Gadget.mouseReport
  split <;> rfl

theorem Settled.letGo (h : Settled s) : Settled s.letGo where
  listeners := rfl
  hid _ := rfl
  unsent := unsent_sendHid (unsent_sendHid h.unsent)
  keys _ _ _ := letGo_keysUp s
  buttons _ := sent_sendHid.mpr (sent_of_forall fun _ => buttonsUp_sendMouseButtons _)

theorem Settled.deactivateCapture (h : Settled s) : Settled s.deactivateCapture := by
  cases hactive : s.captureActive with
  | false => rwa [deactivateCapture_inactive hactive]
  | true =>
    rw [deactivateCapture_active h hactive]
    exact h.letGo

theorem Settled.activateCapture (h : Settled s) : Settled s.activateCapture := by
  rw [activateCapture_eq h]
  exact ⟨rfl,(nomatch ·),h.unsent,(nomatch ·),(nomatch ·)⟩

/-- Without a capture, events lead to nothing but a click to a capture. -/
theorem dispatch_inactive (h : Settled s) (hactive : s.captureActive = false) (e : Input) :
    s.dispatch e = if e = .click then s.activateCapture else s := by
  have hlisteners := h.listeners
  rw [if_neg (by rw [hactive]; exact Bool.noConfusion)] at hlisteners
  unfold State.dispatch
  cases e with
  | click => simp [hlisteners,permanent,Listener.target,Listener.kind,Input.target,Input.kind,State.call]
  | keydown key code =>
    simp [hlisteners,permanent,Listener.target,Listener.kind,Input.target,Input.kind,State.call,hactive]
  | _ => simp [hlisteners,permanent,Listener.target,Listener.kind,Input.target,Input.kind]

/-- During a capture, Escape ends it: its own listener comes first, and takes the handler of the keys away. -/
theorem dispatch_active (h : Settled s) (hactive : s.captureActive = true) (e : Input) :
    s.dispatch e = if e.isEscape = true then s.letGo else e.event?.elim s s.handle := by
  have hlisteners := h.listeners
  rw [if_pos hactive] at hlisteners
  have hactivate : s.activateCapture = s := if_pos hactive
  unfold State.dispatch
  cases e with
  | click =>
    simp [hlisteners,permanent,captured,Listener.target,Listener.kind,Input.target,Input.kind,State.call,hactivate,
      Input.isEscape,Input.event?]
  | keydown key code =>
    have hfilter : s.listeners.filter (fun l => l.target = (Input.keydown key code).target ∧
        l.kind = (Input.keydown key code).kind) = [.escape,.onKeyDown] := by
      rw [hlisteners]
      rfl
    have hescape : Listener.escape ∈ s.listeners := by
      rw [hlisteners]
      decide
    have hkeydown : Listener.onKeyDown ∈ s.listeners := by
      rw [hlisteners]
      decide
    have hcall : s.call (.keydown key code) .escape =
        if (Input.keydown key code).isEscape = true then s.letGo else s := by
      rw [State.call,hactive,deactivateCapture_active h hactive]
      simp only [and_true]
    rw [hfilter,List.foldl_cons,List.foldl_cons,List.foldl_nil,if_pos hescape,hcall]
    by_cases hkey : (Input.keydown key code).isEscape = true
    · rw [if_pos hkey,if_pos hkey]
      rfl
    · rw [if_neg hkey,if_neg hkey,if_pos hkeydown]
      rfl
  | _ =>
    simp [hlisteners,permanent,captured,Listener.target,Listener.kind,Input.target,Input.kind,State.call,
      Input.isEscape,Input.event?]

theorem handle_eq (s : State) (event : Event) : s.handle event =
    (onEvent s.hid event).2.elim { s with hid := (onEvent s.hid event).1 }
      ({ s with hid := (onEvent s.hid event).1 } : State).sendHid := rfl

/-- A handler touches what is held and the channel, no more. -/
theorem Settled.handle (h : Settled s) (hactive : s.captureActive = true) (event : Event) :
    Settled (s.handle event) := by
  have hlisteners := h.listeners
  have hinactive : ¬ s.captureActive = false := by simp [hactive]
  rw [handle_eq]
  cases (onEvent s.hid event).2 with
  | none => exact ⟨hlisteners,(absurd · hinactive),h.unsent,(absurd · hinactive),(absurd · hinactive)⟩
  | some frame =>
    exact ⟨hlisteners,(absurd · hinactive),unsent_sendHid h.unsent,(absurd · hinactive),(absurd · hinactive)⟩

theorem Settled.sendHid (h : Settled s) (hframe : ∀ g : Gadget, (g.onFrame frame).1 = g ∧
    ∀ device, reportOf device (g.onFrame frame).2 = none) : Settled (s.sendHid frame) where
  listeners := h.listeners
  hid := h.hid
  unsent := unsent_sendHid h.unsent
  keys hinactive hreleases htyping := sent_sendHid.mpr <|
    (h.keys hinactive hreleases htyping).mono fun _ hkeys => hkeys.cons fun g => (hframe g).2 _
  buttons hinactive := sent_sendHid.mpr <|
    (h.buttons hinactive).mono fun _ hbuttons => hbuttons.cons fun g => ⟨(hframe g).1,(hframe g).2 _⟩

theorem Settled.changeResolution (h : Settled s) (w height : ℕ) :
    Settled (s.handle (.changeResolution w height)) := by
  change Settled ((Browser.changeResolutionDirect w height).elim s s.sendHid)
  unfold Browser.changeResolutionDirect
  split
  · exact h
  · exact h.sendHid fun g => control_frame _ _ _ _ _ _ _ g

theorem Settled.changeFps (h : Settled s) (fps : ℕ) : Settled (s.handle (.changeFps fps)) := by
  change Settled ((Browser.changeFpsDirect fps).elim s s.sendHid)
  unfold Browser.changeFpsDirect
  split
  · exact h
  · exact h.sendHid fun g => control_frame _ _ _ _ _ _ _ g

theorem Settled.dispatch (h : Settled s) (e : Input) : Settled (s.dispatch e) := by
  cases hactive : s.captureActive with
  | false =>
    rw [dispatch_inactive h hactive]
    split
    · exact h.activateCapture
    · exact h
  | true =>
    rw [dispatch_active h hactive]
    split
    · exact h.letGo
    · cases e.event? with
      | none => exact h
      | some event => exact h.handle hactive event

theorem Settled.press (h : Settled s) (hold : Hold) : Settled (s.press hold) where
  listeners := h.listeners
  hid := h.hid
  unsent := unsent_sendHid h.unsent
  keys _ hreleases _ := absurd hreleases (Nat.succ_ne_zero _)
  buttons hinactive := sent_sendHid.mpr <|
    (h.buttons hinactive).mono fun _ hbuttons => hbuttons.cons (keyboard_frame _ _ _ _ _ _ _)

theorem Settled.released (h : Settled s) (releases : ℕ) (typing : List Typing) :
    Settled (({ s with releases := releases, typing := typing } : State).sendHid released) where
  listeners := h.listeners
  hid := h.hid
  unsent := unsent_sendHid (s := { s with releases := releases, typing := typing }) h.unsent
  keys _ _ _ := sent_sendHid.mpr (sent_of_forall keysUp_released)
  buttons hinactive := sent_sendHid.mpr <|
    State.Sent.mono (s := { s with releases := releases, typing := typing }) (h.buttons hinactive)
      fun _ hbuttons => hbuttons.cons (keyboard_frame _ _ _ _ _ _ _)

theorem Settled.typing (h : Settled s) {typing : List Typing} (hne : typing ≠ []) :
    Settled { s with typing := typing } where
  listeners := h.listeners
  hid := h.hid
  unsent := h.unsent
  keys _ _ hempty := absurd hempty hne
  buttons := h.buttons

theorem Settled.tick (h : Settled s) {run : ℕ} (hs : s.tick run = some s') : Settled s' := by
  obtain ⟨t,ht,rfl⟩ := Option.map_eq_some_iff.mp hs
  dsimp only
  cases (if s.isOpen = true then t.text[t.i]? else none) with
  | none => exact h.released _ _
  | some unit =>
    have hne : s.typing.set run { t with i := t.i + 1 } ≠ [] := by
      intro hempty
      rw [List.set_eq_nil_iff] at hempty
      rw [hempty] at ht
      cases ht
    dsimp only
    cases typed unit with
    | none => exact h.typing hne
    | some hold => exact (h.typing hne).press hold

theorem Settled.proceed (h : Settled s) {readyState : ReadyState} (hs : s.proceed readyState = some s') :
    Settled s' := by
  obtain ⟨dc,hdc,hs⟩ := Option.bind_eq_some_iff.mp hs
  split at hs
  next hrank =>
    cases Option.some.inj hs
    have hsent : readyState = .opened → dc.sent = [] := by
      intro hopen
      refine h.unsent dc hdc ?_
      rw [hopen] at hrank
      cases hready : dc.readyState with
      | connecting => rfl
      | _ =>
        rw [hready] at hrank
        exact absurd hrank (by decide)
    refine ⟨h.listeners,h.hid,fun dc' hdc' hconnecting => ?_,fun _ _ _ dc' hdc' hopen => ?_,fun _ dc' hdc' hopen => ?_⟩
    · cases Option.some.inj hdc'
      have hconnecting : readyState = .connecting := hconnecting
      rw [hconnecting] at hrank
      exact absurd hrank (Nat.not_lt_zero _)
    · cases Option.some.inj hdc'
      rw [hsent hopen]
      exact keysUp_nil
    · cases Option.some.inj hdc'
      rw [hsent hopen]
      exact buttonsUp_nil
  · cases hs

theorem Settled.reset (h : Settled s) : Settled s.reset := by
  have hnone : s.reset.dc = none := rfl
  exact ⟨h.deactivateCapture.listeners,fun _ => rfl,fun _ hdc => absurd (hdc.symm.trans hnone) (Option.some_ne_none _),
    fun _ _ _ => sent_none hnone,fun _ => sent_none hnone⟩

theorem Settled.step {a : Action} (h : Settled s) (hs : step s a = some s') : Settled s' := by
  cases a with
  | input e => exact Option.some.inj hs ▸ h.dispatch e
  | ondatachannel =>
    cases Option.some.inj hs
    refine ⟨h.listeners,h.hid,fun dc hdc _ => ?_,fun _ _ _ dc hdc hopen => ?_,fun _ dc hdc hopen => ?_⟩
    · cases Option.some.inj hdc
      rfl
    all_goals
      cases Option.some.inj hdc
      cases hopen
  | proceed readyState => exact h.proceed hs
  | reset => exact Option.some.inj hs ▸ h.reset
  | changeResolution w height => exact Option.some.inj hs ▸ h.changeResolution w height
  | changeFps fps => exact Option.some.inj hs ▸ h.changeFps fps
  | sendKeyCombo hold =>
    cases Option.some.inj hs
    split
    · exact h.press hold
    · exact h
  | release =>
    simp only [Capture.step,State.release] at hs
    split at hs
    · cases hs
    · cases Option.some.inj hs
      exact h.released _ s.typing
  | typeText text =>
    cases Option.some.inj hs
    split
    · exact h.typing (List.append_ne_nil_of_right_ne_nil _ (List.cons_ne_nil _ _))
    · exact h
  | tick run => exact h.tick hs

variable {as : List Action}

theorem settled_start : Settled {} :=
  ⟨rfl,fun _ => rfl,fun _ hdc => absurd hdc.symm (Option.some_ne_none _),fun _ _ _ => sent_none rfl,
    fun _ => sent_none rfl⟩

theorem settled (h : Run step {} as s) : Settled s :=
  h.invariant (P := fun _ s => Settled s) settled_start fun _ _ _ _ _ hsettled hs => hsettled.step hs

/-- How the page lets go of the target. -/
structure LetsGo (s : State) : Prop where
  listening : ∀ l, l ∈ s.listeners ↔ l ∈ permanent ∨ s.captureActive = true ∧ l ∈ captured
  keys : s.captureActive = true ∨ s.releases = 0 ∧ s.typing = [] → s.deactivateCapture.Sent KeysUp
  buttons : s.deactivateCapture.Sent ButtonsUp

/-- In every run, the handlers are registered while there is a capture and at no other time, and with the end of it no
key and no button is down on the target; the timers are the only other thing that may hold a key, and nothing
else holds a button. -/
theorem letsGo (h : Run step {} as s) : LetsGo s where
  listening l := by
    rw [(settled h).listeners]
    split
    next hactive => rw [List.mem_append,hactive,eq_self,true_and]
    next hactive => simp [hactive]
  keys hquiet := by
    cases hactive : s.captureActive with
    | false =>
      obtain ⟨hreleases,htyping⟩ := hquiet.resolve_left (by rw [hactive]; exact Bool.noConfusion)
      rw [deactivateCapture_inactive hactive]
      exact (settled h).keys hactive hreleases htyping
    | true =>
      rw [deactivateCapture_active (settled h) hactive]
      exact letGo_keysUp s
  buttons := by
    cases hactive : s.captureActive with
    | false =>
      rw [deactivateCapture_inactive hactive]
      exact (settled h).buttons hactive
    | true =>
      rw [deactivateCapture_active (settled h) hactive]
      exact (settled h).letGo.buttons rfl

/-- A key and a button are held, then Escape is pressed. -/
def escapePressed : List Action :=
  [.ondatachannel,.proceed .opened,.input .click,.input (.keydown "a" "KeyA"),.input (.mousedown 0),
    .input (.keydown "Escape" "Escape")]

theorem letsGo_escape : ∃ s, LetsGo s ∧ s.captureActive = false ∧ s.dc.any (fun dc => dc.sent.length = 4) = true := by
  obtain ⟨s,hrun,hp⟩ := exists_run_of_replay step {} escapePressed
    (fun s => !s.captureActive && s.dc.any fun dc => dc.sent.length = 4) (by decide +kernel)
  obtain ⟨hactive,hsent⟩ := Bool.and_eq_true_iff.mp hp
  exact ⟨s,letsGo hrun,Bool.not_eq_true' _ ▸ hactive,hsent⟩

def escape : UInt8 := 0x29

/-- The handler of the keys gets to see a key where Escape is that means something else to the user. -/
def TypesEscape (s : State) : Action → Prop
  | .input (.keydown key code) => s.captureActive = true ∧ key ≠ "Escape" ∧ code = "Escape"
  | _ => False

/-- What is held changes only with an event that reaches a handler, and ends with a capture. -/
theorem hid_step {a : Action} (h : Settled s) (hs : step s a = some s') : s'.hid = s.hid ∨ s'.hid = {} ∨
    ∃ e event, a = .input e ∧ s.captureActive = true ∧ e.isEscape = false ∧ e.event? = some event ∧
      s'.hid = (onEvent s.hid event).1 := by
  have hhandle : ∀ event, (s.handle event).hid = (onEvent s.hid event).1 := by
    intro event
    rw [handle_eq]
    cases (onEvent s.hid event).2 <;> rfl
  cases a with
  | input e =>
    cases Option.some.inj hs
    cases hactive : s.captureActive with
    | false =>
      rw [dispatch_inactive h hactive]
      split
      · exact .inl (by rw [activateCapture_eq h])
      · exact .inl rfl
    | true =>
      rw [dispatch_active h hactive]
      split
      next => exact .inr (.inl rfl)
      next hescape =>
        cases hevent : e.event? with
        | none => exact .inl rfl
        | some event => exact .inr (.inr ⟨e,event,rfl,rfl,Bool.eq_false_iff.mpr hescape,hevent,hhandle event⟩)
  | ondatachannel =>
    cases Option.some.inj hs
    exact .inl rfl
  | proceed readyState =>
    obtain ⟨dc,_,hs⟩ := Option.bind_eq_some_iff.mp hs
    split at hs
    · cases Option.some.inj hs
      exact .inl rfl
    · cases hs
  | reset =>
    cases Option.some.inj hs
    exact .inr (.inl rfl)
  | changeResolution w height =>
    cases Option.some.inj hs
    exact .inl (hhandle _)
  | changeFps fps =>
    cases Option.some.inj hs
    exact .inl (hhandle _)
  | sendKeyCombo hold =>
    cases Option.some.inj hs
    split <;> exact .inl rfl
  | release =>
    simp only [step,State.release] at hs
    split at hs
    · cases hs
    · cases Option.some.inj hs
      exact .inl rfl
  | typeText text =>
    cases Option.some.inj hs
    split <;> exact .inl rfl
  | tick run =>
    obtain ⟨t,_,rfl⟩ := Option.map_eq_some_iff.mp hs
    dsimp only
    cases (if s.isOpen = true then t.text[t.i]? else none) with
    | none => exact .inl rfl
    | some unit =>
      dsimp only
      cases typed unit <;> exact .inl rfl

theorem usage_escape : Browser.usage? "Escape" = some escape := by decide +kernel

theorem escape_mem_onEvent {hid : HidState} (h : escape ∉ hid.keys.toList) (event : Event) :
    escape ∈ (onEvent hid event).1.keys.toList ↔ event = .keyDown "Escape" := by
  constructor
  · intro hmem
    cases event with
    | keyDown code =>
      change escape ∈ (Browser.onKeyDown hid code).keys.toList at hmem
      rw [Browser.onKeyDown_spec] at hmem
      cases husage : Browser.usage? code with
      | none =>
        rw [husage] at hmem
        exact absurd hmem h
      | some usage =>
        rw [husage,Option.elim_some,Browser.KeySet.toList_add] at hmem
        have hsame : usage = escape := by
          split at hmem
          · exact absurd hmem h
          · rw [List.mem_append,List.mem_singleton] at hmem
            exact (hmem.resolve_left h).symm
        subst hsame
        rw [Browser.usage?_injective husage usage_escape]
    | keyUp code =>
      change escape ∈ (Browser.onKeyUp hid code).keys.toList at hmem
      rw [Browser.onKeyUp_spec] at hmem
      cases husage : Browser.usage? code with
      | none =>
        rw [husage] at hmem
        exact absurd hmem h
      | some usage =>
        rw [husage] at hmem
        exact absurd (List.mem_of_mem_erase hmem) h
    | _ => exact absurd hmem h
  · rintro rfl
    change escape ∈ (Browser.onKeyDown hid "Escape").keys.toList
    rw [Browser.onKeyDown_spec,usage_escape,Option.elim_some,Browser.KeySet.toList_add,if_neg h]
    exact List.mem_append_right _ (List.mem_singleton.mpr rfl)

theorem escape_step {a : Action} (h : Settled s) (hup : escape ∉ s.hid.keys.toList) (hs : step s a = some s') :
    ¬ TypesEscape s a ↔ escape ∉ s'.hid.keys.toList := by
  refine not_congr ⟨fun htypes => ?_,fun hmem => ?_⟩
  · cases a with
    | input e =>
      cases e with
      | keydown key code =>
        obtain ⟨hactive,hkey,rfl⟩ := htypes
        cases Option.some.inj hs
        have hescape : ¬ (Input.keydown key "Escape").isEscape = true := fun hescape => hkey (of_decide_eq_true hescape)
        rw [dispatch_active h hactive,if_neg hescape]
        exact (escape_mem_onEvent hup _).mpr rfl
      | _ => cases htypes
    | _ => cases htypes
  · obtain hsame | hempty | ⟨e,event,rfl,hactive,hescape,hevent,hhid⟩ := hid_step h hs
    · rw [hsame] at hmem
      exact absurd hmem hup
    · rw [hempty] at hmem
      cases hmem
    · rw [hhid,escape_mem_onEvent hup] at hmem
      subst hmem
      cases e with
      | keydown key code =>
        cases hevent
        exact ⟨hactive,of_decide_eq_false hescape,rfl⟩
      | _ => cases hevent

/-- Escape as the user knows it just ends a capture, wherever it sits, and no key is held as Escape throughout a run
exactly if there is never another key where Escape is. -/
theorem escape_kept_back (h : Run step {} as s) :
    (∀ code, step s (.input (.keydown "Escape" code)) = some s.deactivateCapture) ∧
      (Always step {} (fun _ s => escape ∉ s.hid.keys.toList) as ↔
        GuardedRun step {} (fun _ s a => ¬ TypesEscape s a) as s) := by
  refine ⟨fun code => ?_,h.always_iff_guarded List.not_mem_nil fun _ _ _ _ hrun hup hs =>
    escape_step (settled hrun.run) hup hs⟩
  change some (s.dispatch (.keydown "Escape" code)) = _
  cases hactive : s.captureActive with
  | false => rw [dispatch_inactive (settled h) hactive,deactivateCapture_inactive hactive,if_neg (nomatch ·)]
  | true =>
    have hescape : (Input.keydown "Escape" code).isEscape = true := rfl
    rw [dispatch_active (settled h) hactive,deactivateCapture_active (settled h) hactive,if_pos hescape]

/-- Escape and Caps Lock have changed places: the one is held, and the other ends the capture. -/
def keysSwapped : List Action :=
  [.ondatachannel,.proceed .opened,.input .click,.input (.keydown "a" "KeyA"),
    .input (.keydown "CapsLock" "Escape")]

theorem escape_kept_back_swapped : ∃ as s, s.captureActive = true ∧ escape ∈ s.hid.keys.toList ∧
    (∀ code, step s (.input (.keydown "Escape" code)) = some s.deactivateCapture) ∧
    (Always step {} (fun _ s => escape ∉ s.hid.keys.toList) as ↔
      GuardedRun step {} (fun _ s a => ¬ TypesEscape s a) as s) := by
  obtain ⟨s,hrun,hp⟩ := exists_run_of_replay step {} keysSwapped
    (fun s => s.captureActive ∧ escape ∈ s.hid.keys.toList) (by decide +kernel)
  obtain ⟨hactive,hheld⟩ := of_decide_eq_true hp
  exact ⟨_,s,hactive,hheld,escape_kept_back hrun⟩

end Capture
end AnyKvm
