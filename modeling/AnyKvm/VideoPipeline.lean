import AnyKvm.AgentSession

/-! The way of a video frame from the encoder to `send_video`: the capture thread of a software back
end, the bridge task of `main` between its `mpsc` and its `broadcast` channel, and the media part of
`webrtc::run`. A step is one decision or one access to something shared of one of the three. -/
namespace AnyKvm
namespace Pipeline

open Transition
open Agent (Event IceState)

/-- A non-empty output of the encoder, by its number, and whether it is an intra frame. -/
structure Frame where
  number : ℕ
  intra : Bool
  deriving DecidableEq, Repr

/-- A capture loop before its capacity check, before it looks at `keyframe_flag`, before it encodes, or
with a frame for `try_send_frame`. -/
inductive CapturePoint
  | top | ready | encoding
  | sending (frame : Frame)
  deriving DecidableEq, Repr

def CapturePoint.held : CapturePoint → List Frame
  | .sending frame => [frame]
  | _ => []

/-- The bridge at the top of its loop, in its sleep, in its drain, in `recv`, or with a frame for
`send`. -/
inductive BridgePoint
  | top | sleeping | draining | receiving
  | sending (frame : Frame)
  deriving DecidableEq, Repr

def BridgePoint.held : BridgePoint → List Frame
  | .sending frame => [frame]
  | _ => []

/-- A receiver of the broadcast channel: the frames still kept for it, and how many it has missed. -/
structure Receiver where
  unread : BoundedQueue Frame 32 := .empty
  missed : ℕ := 0

/-- A full channel gives up its oldest frame. -/
def Receiver.push (rx : Receiver) (frame : Frame) : Receiver :=
  match rx.unread.push? frame with
  | some unread => { rx with unread := unread }
  | none => ⟨(rx.unread.tail.push? frame).getD rx.unread,rx.missed + 1⟩

/-- The frame that a full channel gives up. -/
def Receiver.evicted (rx : Receiver) : List Frame :=
  if rx.unread.isFull then rx.unread.items.take 1 else []

inductive TryRecv
  | ok (frame : Frame) | lagged | empty
  deriving DecidableEq, Repr

def Receiver.tryRecv (rx : Receiver) : TryRecv × Receiver :=
  if 0 < rx.missed then (.lagged,{ rx with missed := 0 })
  else match rx.unread.pop? with
    | some (frame,unread) => (.ok frame,{ rx with unread := unread })
    | none => (.empty,rx)

/-- `webrtc::run` before the media part of its loop, and behind it. -/
inductive WebrtcPoint
  | media | polling
  deriving DecidableEq, Repr

/-- A run of `webrtc::run`; `sent` is history, the frames passed to `send_video`, newest first. -/
structure Session where
  point : WebrtcPoint := .media
  iceConnected : Bool := false
  rx : Receiver := {}
  sent : List Frame := []

/-- `intraNext` tells that the encoder will make its next frame an intra frame. `next` and `gone` are
history: the number of the next frame, and the frames that have been dropped somewhere or belong
to an earlier session. -/
structure State where
  keyframeFlag : Bool := false
  peerConnected : Bool := false
  capture : CapturePoint := .top
  intraNext : Bool := true
  queue : BoundedQueue Frame 32 := .empty
  bridge : BridgePoint := .top
  wasIdle : Bool := true
  session : Option Session := none
  next : ℕ := 0
  gone : List ℕ := []

inductive Action
  | newEncoder
  | checkCapacity
  | takeFlag
  | decodeFailed
  | encode (output : Option Bool)
  | trySend
  | checkPeer
  | wake
  | drain
  | recv
  | send
  | subscribe
  | tryRecv
  | event (e : Event)
  | iterate
  | quit
  | storeFalse
  deriving DecidableEq

namespace State
variable (s : State)

/-- The encoder puts out a frame, or nothing. -/
def encode : Option Bool → State
  | none => { s with capture := .top }
  | some intra =>
    { s with capture := .sending ⟨s.next,intra⟩, intraNext := false, next := s.next + 1 }

/-- `try_send_frame`: a full channel drops the frame. -/
def trySend (frame : Frame) : State :=
  match s.queue.push? frame with
  | some queue => { s with capture := .top, queue := queue }
  | none => { s with capture := .top, gone := frame.number :: s.gone }

/-- The top of the bridge's loop. -/
def checkPeer : State :=
  if s.peerConnected = false then { s with wasIdle := true, bridge := .sleeping }
  else if s.wasIdle then { s with wasIdle := false, bridge := .draining }
  else { s with bridge := .receiving }

/-- `vr.try_recv()` of the drain. -/
def drain : State :=
  match s.queue.pop? with
  | some (frame,queue) => { s with queue := queue, gone := frame.number :: s.gone }
  | none => { s with bridge := .receiving }

/-- `vbt.send(frame)`; without a receiver the frame is lost. -/
def send (frame : Frame) : State :=
  match s.session with
  | some session =>
    { s with
      bridge := .top, session := some { session with rx := session.rx.push frame },
      gone := session.rx.evicted.map Frame.number ++ s.gone }
  | none => { s with bridge := .top, gone := frame.number :: s.gone }

/-- The media part: one `try_recv` and `send_video`, or the drain before ICE is connected, which goes
on until `try_recv` gives no frame. -/
def tryRecv (session : Session) : State :=
  let (result,rx) := session.rx.tryRecv
  if session.iceConnected then
    let sent := match result with
      | .ok frame => frame :: session.sent
      | _ => session.sent
    { s with session := some { session with point := .polling, rx := rx, sent := sent } }
  else match result with
    | .ok frame =>
      { s with session := some { session with rx := rx }, gone := frame.number :: s.gone }
    | _ => { s with session := some { session with point := .polling, rx := rx } }

/-- The session is over, with its receiver. -/
def endSession (session : Session) : State :=
  { s with
    session := none,
    gone := (session.sent.reverse ++ session.rx.unread.items).map Frame.number ++ s.gone }

/-- `handle_event`, as far as it touches video. -/
def handleEvent (session : Session) : Event → State
  | .connected =>
    { s with
      session := some { session with iceConnected := true }, peerConnected := true, keyframeFlag := true }
  | .iceConnectionStateChange .connected | .iceConnectionStateChange .completed | .keyframeRequest =>
    { s with keyframeFlag := true }
  | .iceConnectionStateChange .disconnected =>
    if session.iceConnected then { s.endSession session with peerConnected := false } else s
  | _ => s

end State

/-- A new encoder, and one whose `force_intra_frame` has been called, puts out an intra frame next. -/
def step (s : State) : Action → Option State
  | .newEncoder => if s.capture.held = [] then some { s with capture := .top, intraNext := true } else none
  | .checkCapacity =>
    if s.capture = .top ∧ s.queue.isFull = false then some { s with capture := .ready } else none
  | .takeFlag =>
    if s.capture = .ready then
      some { s with capture := .encoding, intraNext := s.intraNext || s.keyframeFlag, keyframeFlag := false }
    else none
  | .decodeFailed => if s.capture = .encoding then some { s with capture := .top } else none
  | .encode output =>
    if s.capture = .encoding ∧ (s.intraNext = true → output ≠ some false) then some (s.encode output) else none
  | .trySend => match s.capture with
    | .sending frame => some (s.trySend frame)
    | _ => none
  | .checkPeer => if s.bridge = .top then some s.checkPeer else none
  | .wake => if s.bridge = .sleeping then some { s with bridge := .top } else none
  | .drain => if s.bridge = .draining then some s.drain else none
  | .recv =>
    if s.bridge = .receiving then
      s.queue.pop?.map fun r => { s with bridge := .sending r.1, queue := r.2 }
    else none
  | .send => match s.bridge with
    | .sending frame => some (s.send frame)
    | _ => none
  | .subscribe => if s.session.isNone then some { s with session := some {} } else none
  | .tryRecv => s.session.bind fun session =>
    if session.point = .media then some (s.tryRecv session) else none
  | .event e => s.session.bind fun session =>
    if session.point = .polling then some (s.handleEvent session e) else none
  | .iterate => s.session.bind fun session =>
    if session.point = .polling then some { s with session := some { session with point := .media } } else none
  | .quit => s.session.map s.endSession
  | .storeFalse => some { s with peerConnected := false }

abbrev PipelineRun : List Action → State → Prop := Run step {}

end Pipeline
end AnyKvm
