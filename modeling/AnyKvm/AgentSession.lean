import AnyKvm.Transition
import AnyKvm.BoundedQueue
import AnyKvm.Hid

/-! One session of the agent: `webrtc::run` and `signal_client::run`, connected by the
channels that `main` makes for the session. A step takes one task from one suspension point
or decision to the next; what str0m, the network and the user do is chosen by the action. -/
namespace AnyKvm
namespace Agent

open Hid Transition

structure SignalMsg (Sdp Cand : Type*) where
  msgType : String
  sdp : Option Sdp
  candidate : Option Cand
  deriving DecidableEq, Repr

/-- What `read.next()` yields. -/
inductive WsMessage (Raw : Type*)
  | streamEnded
  | error
  | text (raw : Raw)
  | ping
  | close
  | other
  deriving DecidableEq, Repr

inductive IceState
  | new | checking | connected | completed | disconnected
  deriving DecidableEq, Repr

/-- The events of str0m; `other` stands for those that `handle_event` only logs. -/
inductive Event
  | connected
  | channelData (data : Frame)
  | iceConnectionStateChange (state : IceState)
  | keyframeRequest
  | other
  deriving DecidableEq, Repr

/-- Where `webrtc::run` is: gathering candidates, waiting for the answer, at the liveness check, in
the loop over `remote_cand_rx.try_recv`, in the loop over `poll_output`, blocked in `hid_tx.send`,
in the final `select`, or gone. -/
inductive WebrtcPhase
  | gathering | waiting | head | cands | poll
  | sendHid (data : Frame)
  | select
  | ended
  deriving DecidableEq, Repr

/-- Where `signal_client::run` is. `sendAnswer` and `sendCand` are the two channel sends of
`handle_incoming`, `backoff` the delay before the next connection. -/
inductive SignalPhase (Sdp Cand : Type*)
  | awaitOffer | connecting | sendOffer | reading
  | sendAnswer (sdp : Sdp)
  | sendCand (cand : Cand)
  | backoff
  | ended
  deriving DecidableEq, Repr

def SignalPhase.isEnded {Sdp Cand : Type*} : SignalPhase Sdp Cand → Bool
  | .ended => true
  | _ => false

/-- The state of both tasks. `taken` and `iceFailed` are history: the answer passed to
`accept_answer`, and whether ICE has been reported disconnected before it was connected. -/
structure Session (Sdp Cand : Type*) where
  webrtc : WebrtcPhase
  signal : SignalPhase Sdp Cand
  offered : Bool
  answers : BoundedQueue Sdp 4
  cands : BoundedQueue Cand 64
  iceConnected : Bool
  peerConnected : Bool
  keyframe : Bool
  taken : Option Sdp
  iceFailed : Bool
  deriving DecidableEq

/-- A new session; the two flags are shared by all sessions. -/
def Session.start {Sdp Cand : Type*} (peerConnected keyframe : Bool) : Session Sdp Cand where
  webrtc := .gathering
  signal := .awaitOffer
  offered := false
  answers := .empty
  cands := .empty
  iceConnected := false
  peerConnected := peerConnected
  keyframe := keyframe
  taken := none
  iceFailed := false

inductive Action (Raw : Type*)
  | gather (ok : Bool)
  | recvAnswer
  | checkAlive (alive : Bool)
  | recvCand
  | candsDone
  | event (e : Event)
  | hidSent
  | pollTimeout
  | pollError
  | selected (ok : Bool)
  | recvOffer
  | connect (ok : Bool)
  | sendOffer (ok : Bool)
  | read (msg : WsMessage Raw)
  | sent
  | retry
  | abort
  deriving DecidableEq, Repr

section Machine
variable {Raw Sdp Cand : Type*} (fromStr : Raw → Option (SignalMsg Sdp Cand)) (accepts : Sdp → Bool)

namespace Session
variable (s : Session Sdp Cand)

/-- `build_full_offer` and `offer_tx.send`, which fails once the signal task is gone. -/
def gather (ok : Bool) : Session Sdp Cand :=
  if ok && !s.signal.isEnded then { s with webrtc := .waiting, offered := true }
  else { s with webrtc := .ended }

/-- `answer_rx.recv` and `accept_answer`. The channel is closed once the signal task is gone. -/
def recvAnswer : Option (Session Sdp Cand) :=
  match s.answers.pop? with
  | some (sdp,answers) =>
    some { s with webrtc := if accepts sdp then .head else .ended, answers := answers, taken := some sdp }
  | none => if s.signal.isEnded then some { s with webrtc := .ended } else none

def recvCand : Option (Session Sdp Cand) :=
  s.cands.pop?.map fun r => { s with cands := r.2 }

def candsDone : Option (Session Sdp Cand) :=
  if s.cands.items = [] then some { s with webrtc := .poll } else none

/-- Data of the channel goes to the HID thread, and the task waits until there is room. A
disconnected ICE agent ends the session only if the session had been connected. -/
def handleEvent : Event → Session Sdp Cand
  | .connected => { s with iceConnected := true, peerConnected := true, keyframe := true }
  | .channelData data => { s with webrtc := .sendHid data }
  | .iceConnectionStateChange .connected | .iceConnectionStateChange .completed =>
    { s with keyframe := true }
  | .iceConnectionStateChange .disconnected =>
    if s.iceConnected then { s with webrtc := .ended, peerConnected := false }
    else { s with iceFailed := true }
  | .iceConnectionStateChange _ => s
  | .keyframeRequest => { s with keyframe := true }
  | .other => s

/-- `offer_rx.await`: the offer, or an error once the sender is gone. -/
def recvOffer : Option (Session Sdp Cand) :=
  if s.offered then some { s with signal := .connecting }
  else if s.webrtc = .ended then some { s with signal := .ended }
  else none

def handleIncoming (raw : Raw) : Session Sdp Cand :=
  match fromStr raw with
  | none => s
  | some msg =>
    if msg.msgType = "answer" then
      match msg.sdp with
      | some sdp => { s with signal := .sendAnswer sdp }
      | none => s
    else if msg.msgType = "candidate" then
      match msg.candidate with
      | some cand => { s with signal := .sendCand cand }
      | none => s
    else s

/-- One message of the WebSocket. A stream that ends or is closed ends the task, one that fails is
connected again. -/
def read : WsMessage Raw → Session Sdp Cand
  | .streamEnded | .close => { s with signal := .ended }
  | .error => { s with signal := .backoff }
  | .text raw => s.handleIncoming fromStr raw
  | .ping | .other => s

/-- A channel send comes back: with an error, which is ignored, once the receiver is gone, and else as
soon as there is room. -/
def sent : Option (Session Sdp Cand) :=
  match s.signal with
  | .sendAnswer sdp =>
    if s.webrtc = .ended then some { s with signal := .reading }
    else (s.answers.push? sdp).map fun answers => { s with signal := .reading, answers := answers }
  | .sendCand cand =>
    if s.webrtc = .ended then some { s with signal := .reading }
    else (s.cands.push? cand).map fun cands => { s with signal := .reading, cands := cands }
  | _ => none

end Session

def step (s : Session Sdp Cand) : Action Raw → Option (Session Sdp Cand)
  | .gather ok => if s.webrtc = .gathering then some (s.gather ok) else none
  | .recvAnswer => if s.webrtc = .waiting then s.recvAnswer accepts else none
  | .checkAlive alive =>
    if s.webrtc = .head then some { s with webrtc := if alive then .cands else .ended } else none
  | .recvCand => if s.webrtc = .cands then s.recvCand else none
  | .candsDone => if s.webrtc = .cands then s.candsDone else none
  | .event e => if s.webrtc = .poll then some (s.handleEvent e) else none
  | .hidSent => match s.webrtc with
    | .sendHid _ => some { s with webrtc := .poll }
    | _ => none
  | .pollTimeout => if s.webrtc = .poll then some { s with webrtc := .select } else none
  | .pollError => if s.webrtc = .poll then some { s with webrtc := .ended } else none
  | .selected ok =>
    if s.webrtc = .select then some { s with webrtc := if ok then .head else .ended } else none
  | .recvOffer => match s.signal with
    | .awaitOffer => s.recvOffer
    | _ => none
  | .connect ok => match s.signal with
    | .connecting => some { s with signal := if ok then .sendOffer else .backoff }
    | _ => none
  | .sendOffer ok => match s.signal with
    | .sendOffer => some { s with signal := if ok then .reading else .backoff }
    | _ => none
  | .read msg => match s.signal with
    | .reading => some (s.read fromStr msg)
    | _ => none
  | .sent => s.sent
  | .retry => match s.signal with
    | .backoff => some { s with signal := .connecting }
    | _ => none
  | .abort =>
    if s.webrtc = .ended ∨ s.signal.isEnded = true then
      some { s with webrtc := .ended, signal := .ended, peerConnected := false }
    else none

/-- However the tasks go on by allowed steps, `webrtc::run` neither performs the read nor returns. -/
def NeverReads (allowed : Action Raw → Prop) (read : Action Raw) (s : Session Sdp Cand) : Prop :=
  ∀ bs t, Run (step fromStr accepts) s bs t → (∀ b ∈ bs, allowed b) → t.webrtc ≠ .ended ∧ read ∉ bs

variable {fromStr accepts} {s s' : Session Sdp Cand} {a : Action Raw}

theorem NeverReads.step {allowed : Action Raw → Prop} {read b : Action Raw} {t : Session Sdp Cand}
    (h : NeverReads fromStr accepts allowed read s) (hs : Agent.step fromStr accepts s b = some t)
    (hb : allowed b) : b ≠ read ∧ NeverReads fromStr accepts allowed read t := by
  have hone := (h [b] t (.single hs) (by simpa using hb)).2
  refine ⟨fun he => hone (by simp [he]),fun bs u hrun hlive => ?_⟩
  have hall := h (bs ++ [b]) u ((Run.single hs).trans hrun) (by simpa [or_imp,forall_and] using ⟨hlive,hb⟩)
  exact ⟨hall.1,fun hmem => hall.2 (by simp [hmem])⟩

theorem step_eq_some : step fromStr accepts s a = some s' ↔ match a with
    | .gather ok => s.webrtc = .gathering ∧ s' = s.gather ok
    | .recvAnswer => s.webrtc = .waiting ∧ s.recvAnswer accepts = some s'
    | .checkAlive alive =>
      s.webrtc = .head ∧ s' = { s with webrtc := if alive then .cands else .ended }
    | .recvCand => s.webrtc = .cands ∧ s.recvCand = some s'
    | .candsDone => s.webrtc = .cands ∧ s.candsDone = some s'
    | .event e => s.webrtc = .poll ∧ s' = s.handleEvent e
    | .hidSent => (∃ data, s.webrtc = .sendHid data) ∧ s' = { s with webrtc := .poll }
    | .pollTimeout => s.webrtc = .poll ∧ s' = { s with webrtc := .select }
    | .pollError => s.webrtc = .poll ∧ s' = { s with webrtc := .ended }
    | .selected ok => s.webrtc = .select ∧ s' = { s with webrtc := if ok then .head else .ended }
    | .recvOffer => s.signal = .awaitOffer ∧ s.recvOffer = some s'
    | .connect ok =>
      s.signal = .connecting ∧ s' = { s with signal := if ok then .sendOffer else .backoff }
    | .sendOffer ok =>
      s.signal = .sendOffer ∧ s' = { s with signal := if ok then .reading else .backoff }
    | .read msg => s.signal = .reading ∧ s' = s.read fromStr msg
    | .sent => s.sent = some s'
    | .retry => s.signal = .backoff ∧ s' = { s with signal := .connecting }
    | .abort => (s.webrtc = .ended ∨ s.signal.isEnded = true) ∧
        s' = { s with webrtc := .ended, signal := .ended, peerConnected := false } := by
  cases a with
  | hidSent => cases h : s.webrtc <;> simp [step,h,@eq_comm _ s']
  | recvOffer => cases h : s.signal <;> simp [step,h]
  | connect ok => cases h : s.signal <;> simp [step,h,@eq_comm _ s']
  | sendOffer ok => cases h : s.signal <;> simp [step,h,@eq_comm _ s']
  | read msg => cases h : s.signal <;> simp [step,h,@eq_comm _ s']
  | retry => cases h : s.signal <;> simp [step,h,@eq_comm _ s']
  | _ => simp [step,@eq_comm _ s']

theorem recvAnswer_eq_some : s.recvAnswer accepts = some s' ↔
    (∃ sdp answers, s.answers.items = sdp :: answers.items ∧
      s' = { s with webrtc := if accepts sdp then .head else .ended, answers := answers, taken := some sdp }) ∨
    s.answers.items = [] ∧ s.signal.isEnded = true ∧ s' = { s with webrtc := .ended } := by
  unfold Session.recvAnswer
  split
  · rename_i sdp answers hpop
    have hitems := BoundedQueue.pop?_eq_some.mp hpop
    constructor
    · intro h
      exact .inl ⟨sdp,answers,hitems,(Option.some.inj h).symm⟩
    · rintro (⟨sdp',answers',hitems',rfl⟩ | ⟨hnil,_⟩)
      · rw [hitems,List.cons.injEq] at hitems'
        rw [hitems'.1,BoundedQueue.ext hitems'.2]
      · rw [hitems] at hnil
        cases hnil
  · rename_i hpop
    have hitems := BoundedQueue.pop?_eq_none.mp hpop
    simp [hitems,@eq_comm _ s']

theorem recvCand_eq_some : s.recvCand = some s' ↔
    ∃ cand cands, s.cands.items = cand :: cands.items ∧ s' = { s with cands := cands } := by
  simp [Session.recvCand,BoundedQueue.pop?_eq_some,@eq_comm _ s']

theorem sent_eq_some : s.sent = some s' ↔
    (∃ sdp, s.signal = .sendAnswer sdp ∧
      (s.webrtc = .ended ∧ s' = { s with signal := .reading } ∨
        s.webrtc ≠ .ended ∧ ∃ answers, s.answers.push? sdp = some answers ∧
          s' = { s with signal := .reading, answers := answers })) ∨
    ∃ cand, s.signal = .sendCand cand ∧
      (s.webrtc = .ended ∧ s' = { s with signal := .reading } ∨
        s.webrtc ≠ .ended ∧ ∃ cands, s.cands.push? cand = some cands ∧
          s' = { s with signal := .reading, cands := cands }) := by
  unfold Session.sent
  cases h : s.signal <;> by_cases he : s.webrtc = .ended <;> simp [he,@eq_comm _ s']

end Machine

end Agent
end AnyKvm
