import AnyKvm.Transition
import AnyKvm.Text
import AnyKvm.Hid

/-! The capture loop of `video.rs`: `run_with_ctrl` and its four back ends.
A step is one decision of the loop, made after a call to the device has come back; the
commands on the control channel arrive in between. -/
namespace AnyKvm
namespace Video

open Transition Hid

structure VideoConfig where
  source : String
  device : String
  width : UInt32
  height : UInt32
  fps : UInt32
  bitrateKbps : UInt32
  hwEncode : Bool
  deriving DecidableEq, Repr

/-- The settings that a capture attempt hands to its device or encoder. -/
def VideoConfig.settings (cfg : VideoConfig) : UInt32 × UInt32 × UInt32 := (cfg.width,cfg.height,cfg.fps)

def VideoConfig.apply (cfg : VideoConfig) : VideoControl → VideoConfig
  | .changeResolution width height => { cfg with width := width, height := height }
  | .changeFps fps => { cfg with fps := fps }

/-- The loop of `check_video_ctrl` over the commands that are pending when it finds the channel empty. -/
def checkLoop : List VideoControl → VideoConfig → Bool → VideoConfig × Bool
  | [], cfg, restart => (cfg,restart)
  | .changeResolution width height :: cmds, cfg, restart =>
    if width ≠ cfg.width ∨ height ≠ cfg.height then
      checkLoop cmds { cfg with width := width, height := height } true
    else checkLoop cmds cfg restart
  | .changeFps fps :: cmds, cfg, restart =>
    if fps ≠ cfg.fps then checkLoop cmds { cfg with fps := fps } true
    else checkLoop cmds cfg restart

/-- The commands applied to the configuration, and whether a restart is needed. -/
def checkVideoCtrl (ctrlRx : Option (List VideoControl)) (cfg : VideoConfig) : VideoConfig × Bool :=
  match ctrlRx with
  | none => (cfg,false)
  | some cmds => checkLoop cmds cfg false

/-- `try_hw_h264`, `run_sw_h264`, `run_mjpeg_h264` and `run_screen_capture`. -/
inductive Backend
  | hw | sw | mjpeg | screen
  deriving DecidableEq, Repr

/-- The failure of a back end whose pixel format the device does not take. -/
def Backend.unsupported : Backend → Option String
  | .hw => some "device does not support H264 output format"
  | .sw => some "device does not support YUYV for software encoding"
  | .mjpeg => some "device does not support MJPEG format"
  | .screen => none

def restartMarker : List Char := "video_restart:".toList

def restartText (cfg : VideoConfig) : List Char :=
  restartMarker ++ (Text.showDecimal cfg.width.toNat ++ ':' ::
    (Text.showDecimal cfg.height.toNat ++ ':' :: Text.showDecimal cfg.fps.toNat))

def parseU32 (text : List Char) : Option UInt32 := (Text.parseDecimal 4294967296 text).map UInt32.ofNat

/-- The parser of `run_with_ctrl`: values that do not parse leave their field as it is. -/
def parseRestart (cfg : VideoConfig) (msg : List Char) : VideoConfig :=
  match (Text.upTo restartMarker ((Text.after? restartMarker msg).getD [])).splitOn ':' with
  | w :: h :: f :: _ =>
    { cfg with width := (parseU32 w).getD cfg.width, height := (parseU32 h).getD cfg.height,
               fps := (parseU32 f).getD cfg.fps }
  | _ => cfg

structure Features where
  v4l2Capture : Bool
  screenCapture : Bool
  deriving DecidableEq, Repr

/-- Program points of `run_with_ctrl`. `setup` is the call of a back end, `looping` its capture
loop with the copy of the configuration that it keeps, `matching` the match on its failure. -/
inductive Phase
  | head
  | setup (b : Backend)
  | looping (b : Backend) (cfgMut : VideoConfig)
  | matching (msg : List Char)
  | drain
  | returned (ok : Bool)
  | panicked
  deriving DecidableEq, Repr

/-- `received` and `raised` are history: the commands taken from the channel so far, and the
settings of a restart that a back end has asked for and that has not been parsed yet. -/
structure State where
  cfg : VideoConfig
  ctrlRx : Option (List VideoControl)
  phase : Phase
  received : List VideoControl
  raised : Option (UInt32 × UInt32 × UInt32)
  deriving DecidableEq, Repr

def State.start (cfg : VideoConfig) (ctrl : Bool) : State where
  cfg := cfg
  ctrlRx := if ctrl then some [] else none
  phase := .head
  received := []
  raised := none

inductive SetupResult (E : Type*)
  | ok | unsupported | error (e : E)
  deriving DecidableEq

/-- How one pass of a capture loop goes on after `check_video_ctrl`: it captures or waits, finds the
frame channel closed, or fails. -/
inductive Outcome (E : Type*)
  | again | closed | error (e : E)
  deriving DecidableEq

inductive Action (E : Type*)
  | arrive (cmd : VideoControl)
  | begin (device : Except E Unit)
  | configure (result : SetupResult E)
  | poll (outcome : Outcome E)
  | parse
  | drain

section Machine
variable {E : Type*} (features : Features) (display : E → List Char)

namespace State
variable (s : State)

def goto (phase : Phase) : State := { s with phase := phase }

/-- The top of the loop: pick the source, and open the device. -/
def begin (device : Except E Unit) : State :=
  if s.cfg.source = "screen" then
    if features.screenCapture then s.goto (.setup .screen) else s.goto (.returned false)
  else if features.v4l2Capture then
    match device with
    | .error _ => s.goto (.returned false)
    | .ok _ => s.goto (.setup (if s.cfg.hwEncode then .hw else .sw))
  else s.goto (.returned false)

/-- What becomes of the failure of a back end: the first two only make way for the next one. -/
def fail (b : Backend) (msg : List Char) : State :=
  match b with
  | .hw => s.goto (.setup .sw)
  | .sw => s.goto (.setup .mjpeg)
  | .mjpeg | .screen => s.goto (.matching msg)

/-- A back end configures its device. Screen capture then divides by the frame rate. -/
def configure (b : Backend) : SetupResult E → Option State
  | .ok => some (if b = .screen ∧ s.cfg.fps = 0 then s.goto .panicked else s.goto (.looping b s.cfg))
  | .unsupported => b.unsupported.map fun text => s.fail b text.toList
  | .error e => some (s.fail b (display e))

/-- The commands that a loop over `try_recv` takes from the channel. -/
def takeCommands : State :=
  { s with ctrlRx := s.ctrlRx.map fun _ => [], received := s.received ++ s.ctrlRx.getD [] }

/-- One pass of a capture loop. -/
def poll (b : Backend) (cfgMut : VideoConfig) (outcome : Outcome E) : State :=
  let r := checkVideoCtrl s.ctrlRx cfgMut
  if r.2 then { s.takeCommands.fail b (restartText r.1) with raised := some r.1.settings }
  else match outcome with
    | .again => s.takeCommands.goto (.looping b r.1)
    | .closed => s.takeCommands.goto (.returned true)
    | .error e => s.takeCommands.fail b (display e)

/-- `run_with_ctrl` looks for a restart request in the failure. -/
def parse (msg : List Char) : State :=
  if Text.contains restartMarker msg then
    { s with cfg := parseRestart s.cfg msg, phase := .drain, raised := none }
  else s.goto (.returned false)

/-- The commands that have come in since are applied as well. -/
def drain : State :=
  { s.takeCommands with cfg := (s.ctrlRx.getD []).foldl VideoConfig.apply s.cfg, phase := .head }

end State

def step (s : State) : Action E → Option State
  | .arrive cmd => s.ctrlRx.map fun pending => { s with ctrlRx := some (pending ++ [cmd]) }
  | .begin device => match s.phase with
    | .head => some (s.begin features device)
    | _ => none
  | .configure result => match s.phase with
    | .setup b => s.configure display b result
    | _ => none
  | .poll outcome => match s.phase with
    | .looping b cfgMut => some (s.poll display b cfgMut outcome)
    | _ => none
  | .parse => match s.phase with
    | .matching msg => some (s.parse msg)
    | _ => none
  | .drain => match s.phase with
    | .drain => some s.drain
    | _ => none

variable {features display} {s s' : State} {a : Action E}

theorem step_eq_some : step features display s a = some s' ↔ match a with
    | .arrive cmd => ∃ pending, s.ctrlRx = some pending ∧ s' = { s with ctrlRx := some (pending ++ [cmd]) }
    | .begin device => s.phase = .head ∧ s' = s.begin features device
    | .configure result => ∃ b, s.phase = .setup b ∧ s.configure display b result = some s'
    | .poll outcome => ∃ b cfgMut, s.phase = .looping b cfgMut ∧ s' = s.poll display b cfgMut outcome
    | .parse => ∃ msg, s.phase = .matching msg ∧ s' = s.parse msg
    | .drain => s.phase = .drain ∧ s' = s.drain := by
  cases a with
  | arrive cmd => cases h : s.ctrlRx <;> simp [step,h,eq_comm]
  | _ => cases h : s.phase <;> simp [step,h,eq_comm]

theorem poll_of_restart {b : Backend} {cfgMut : VideoConfig} (outcome : Outcome E)
    (h : (checkVideoCtrl s.ctrlRx cfgMut).2 = true) :
    s.poll display b cfgMut outcome =
      { s.takeCommands.fail b (restartText (checkVideoCtrl s.ctrlRx cfgMut).1) with
        raised := some (checkVideoCtrl s.ctrlRx cfgMut).1.settings } := by
  unfold State.poll
  exact if_pos h

theorem poll_of_no_restart {b : Backend} {cfgMut : VideoConfig} (outcome : Outcome E)
    (h : (checkVideoCtrl s.ctrlRx cfgMut).2 = false) :
    s.poll display b cfgMut outcome = match outcome with
      | .again => s.takeCommands.goto (.looping b (checkVideoCtrl s.ctrlRx cfgMut).1)
      | .closed => s.takeCommands.goto (.returned true)
      | .error e => s.takeCommands.fail b (display e) := by
  unfold State.poll
  refine (if_neg ?_).trans ?_
  · simp [h]
  · cases outcome <;> rfl

end Machine

end Video
end AnyKvm
