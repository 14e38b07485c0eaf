import Mathlib.Algebra.Order.Field.Rat
import Mathlib.Data.List.Basic
import Mathlib.Tactic.Linarith

/-! `app.js`: the picture quality that the browser asks the agent for, by hand, by the type of the connection,
and by the frame rate that arrives. -/
namespace AnyKvm
namespace Quality

structure Profile where
  width : ℕ
  height : ℕ
  fps : ℕ
  deriving DecidableEq, Repr

-- `QUALITY_PROFILES`
def p2pHigh : Profile := ⟨1920,1080,30⟩

def p2p : Profile := ⟨1280,720,30⟩

def relay : Profile := ⟨1280,720,15⟩

def relayLow : Profile := ⟨720,480,15⟩

def minimum : Profile := ⟨640,480,10⟩

def resLadder : List (ℕ × ℕ) := [(1920,1080),(1280,720),(720,480),(640,480)]

-- The options of `index.html`
def offeredSizes : List (ℕ × ℕ) := [(640,480),(720,480),(1024,768),(1280,720),(1920,1080)]

def offeredFps : List ℕ := [5,10,15,24,30]

inductive ConnectionType
  | unknown | p2p | relay
  deriving DecidableEq, Repr

/-- What the agent is asked for. -/
inductive Command
  | resolution (w h : ℕ)
  | fps (fps : ℕ)
  deriving DecidableEq, Repr

/-- `channelOpen` is whether there is a data channel and it is open, `autoTimers` are the calls of `applyAutoQuality`
that wait for their time, and `sent` are the commands so far, over whatever connections, newest first. -/
structure State where
  adaptiveEnabled : Bool := true
  manualOverride : Bool := false
  currentProfile : Option Profile := none
  connectionType : ConnectionType := .unknown
  fpsCheckCount : ℕ := 0
  fpsRing : List ℚ := []
  fpsGuardActive : Bool := false
  channelOpen : Bool := false
  autoTimers : ℕ := 0
  sent : List Command := []
  deriving DecidableEq

/-- The place in the ladder behind the first size that is not wider; `findIndex` gives -1 if there is none. -/
def nextIdx (curW : ℕ) : ℕ :=
  match resLadder.findIdx? fun r => r.1 ≤ curW with
  | some curIdx => curIdx + 1
  | none => 0

namespace State
variable (s : State)

def changeResolutionDirect (w h : ℕ) : State :=
  if w = 0 ∨ h = 0 ∨ s.channelOpen = false then s else { s with sent := .resolution w h :: s.sent }

def changeFpsDirect (fps : ℕ) : State :=
  if fps = 0 ∨ s.channelOpen = false then s else { s with sent := .fps fps :: s.sent }

/-- Another size in the profile, if there is one. -/
def resizeProfile (w h : ℕ) : State :=
  { s with currentProfile := s.currentProfile.map fun p => { p with width := w, height := h } }

def retimeProfile (fps : ℕ) : State :=
  { s with currentProfile := s.currentProfile.map fun p => { p with fps := fps } }

def applyProfile (p : Profile) : State :=
  (({ s with currentProfile := some p } : State).changeResolutionDirect p.width p.height).changeFpsDirect p.fps

def applyAutoQuality : State :=
  s.applyProfile (if s.connectionType = .p2p then Quality.p2p else Quality.relay)

/-- Every fifth check is an evaluation. -/
def adaptiveFpsCheck (actualFps : ℚ) (targetFps : ℕ) : State :=
  match s.currentProfile with
  | none => s
  | some p =>
    if s.adaptiveEnabled = false ∨ s.manualOverride = true then s
    else if s.fpsCheckCount + 1 < 5 then { s with fpsCheckCount := s.fpsCheckCount + 1 }
    else
      let s := { s with fpsCheckCount := 0 }
      if 0 < actualFps ∧ 0 < targetFps ∧ actualFps < targetFps * (7 / 10) then
        match resLadder[nextIdx p.width]? with
        | some lower => s.applyProfile { p with width := lower.1, height := lower.2 }
        | none => s
      else s

/-- The width that the guard takes for the current one. -/
def curW : ℕ := match s.currentProfile with
  | some p => p.width
  | none => 1280

def curFps : ℕ := match s.currentProfile with
  | some p => p.fps
  | none => 15

/-- First the resolution; where that is the lowest, the frame rate. -/
def forceMinimumUsable : State :=
  let s := match resLadder[nextIdx s.curW]? with
    | some lower => (s.changeResolutionDirect lower.1 lower.2).resizeProfile lower.1 lower.2
    | none => if s.curFps > 10 then (s.changeFpsDirect 10).retimeProfile 10 else s
  { s with fpsRing := [] }

/-- `FPS_RING_SIZE` is 15. -/
def pushFps (fps : ℚ) : List ℚ :=
  let ring := s.fpsRing ++ [fps]
  if ring.length > 15 then ring.tail else ring

def average (ring : List ℚ) : ℚ := ring.foldl (· + ·) 0 / ring.length

/-- `FPS_MIN_USABLE` is 10. -/
def fpsGuardCheck (fps : ℚ) : State :=
  if fps ≤ 0 then s
  else
    let ring := s.pushFps fps
    let s := { s with fpsRing := ring }
    if ring.length < 10 then s
    else if average ring < 10 ∧ s.fpsGuardActive = false then
      ({ s with fpsGuardActive := true } : State).forceMinimumUsable
    else if average ring ≥ 10 + 2 then { s with fpsGuardActive := false }
    else s

/-- The empty option chooses nothing. -/
def changeResolution (val : Option (ℕ × ℕ)) : State :=
  match val with
  | none => s
  | some (w,h) =>
    let s := { s with manualOverride := true }
    if w = 0 ∨ h = 0 then s else (s.changeResolutionDirect w h).resizeProfile w h

def changeFps (val : Option ℕ) : State :=
  match val with
  | none => s
  | some fps =>
    let s := { s with manualOverride := true }
    if fps = 0 then s else (s.changeFpsDirect fps).retimeProfile fps

def toggleAdaptive : State :=
  let s := { s with adaptiveEnabled := !s.adaptiveEnabled, manualOverride := false }
  if s.adaptiveEnabled = true ∧ s.connectionType ≠ .unknown then s.applyAutoQuality else s

/-- Nothing is sent: the agent keeps what it has been asked for last. `adaptiveEnabled` and the timers stay. -/
def reset : State :=
  { s with
    connectionType := .unknown, currentProfile := none, manualOverride := false, fpsCheckCount := 0, fpsRing := [],
    fpsGuardActive := false, channelOpen := false }

end State

/-- What `RES_LADDER[nextIdx]` is. -/
def lower (w : ℕ) : Option (ℕ × ℕ) :=
  if w < 640 then some (1920,1080)
  else if w < 720 then none
  else if w < 1280 then some (640,480)
  else if w < 1920 then some (720,480)
  else some (1280,720)

theorem lower_eq (w : ℕ) : resLadder[nextIdx w]? = lower w := by
  unfold nextIdx resLadder lower
  simp only [List.findIdx?_cons,List.findIdx?_nil]
  by_cases h₁ : 1920 ≤ w
  · simp [h₁,show ¬ w < 640 by omega,show ¬ w < 720 by omega,show ¬ w < 1280 by omega,show ¬ w < 1920 by omega]
  by_cases h₂ : 1280 ≤ w
  · simp [h₁,h₂,show ¬ w < 640 by omega,show ¬ w < 720 by omega,show ¬ w < 1280 by omega,show w < 1920 by omega]
  by_cases h₃ : 720 ≤ w
  · simp [h₁,h₂,h₃,show ¬ w < 640 by omega,show ¬ w < 720 by omega,show w < 1280 by omega]
  by_cases h₄ : 640 ≤ w
  · simp [h₁,h₂,h₃,h₄,show ¬ w < 640 by omega,show w < 720 by omega]
  · simp [h₁,h₂,h₃,h₄,show w < 640 by omega]

end Quality
end AnyKvm
