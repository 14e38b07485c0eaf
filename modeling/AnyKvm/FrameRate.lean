import AnyKvm.VideoRestart

/-! Frame rates on the way from the data channel to the screen capture.
The video thread of `main.rs` runs next to the HID thread, which turns untrusted frames into
commands; `run_screen_capture` divides by the frame rate it is called with. -/
namespace AnyKvm
namespace FrameRate

open Transition Hid Video

inductive HidThread
  | gadget (g : Gadget)
  | ch9329 (p : Ch9329)
  deriving DecidableEq, Repr

/-- One pass of the frame loop, and the video command it sends. -/
def HidThread.onFrame : HidThread → Frame → HidThread × Option VideoControl
  | .gadget g, frame => (.gadget (g.onFrame frame).1,(g.onFrame frame).2.command)
  | .ch9329 p, frame => (.ch9329 (p.onFrame frame).1,(p.onFrame frame).2.command)

theorem HidThread.onFrame_command (h : HidThread) (frame : Frame) :
    (h.onFrame frame).2 = command frame := by
  cases h with
  | gadget g => exact g.onFrame_command frame
  | ch9329 p => exact p.onFrame_command frame

/-- `fellBack` tells that `main` has called `video::run` on the screen after a failure. -/
structure State where
  hid : HidThread
  video : Video.State
  fellBack : Bool
  deriving DecidableEq, Repr

def State.start (cfg₀ : VideoConfig) (hid : HidThread) : State := ⟨hid,.start cfg₀ true,false⟩

/-- The configuration with which `main` falls back to the screen. -/
def screenConfig (cfg₀ : VideoConfig) : VideoConfig := { cfg₀ with source := "screen" }

/-- Commands arrive only through frames. -/
inductive Action (E : Type*)
  | frame (frame : Frame)
  | video (b : Video.Action E)
  | fallback

section Machine
variable {E : Type*} (features : Features) (display : E → List Char) (cfg₀ : VideoConfig)

/-- The HID thread handles a frame. Sending fails silently once nobody receives. -/
def State.onFrame (s : State) (frame : Frame) : State :=
  { s with
    hid := (s.hid.onFrame frame).1
    video := match (s.hid.onFrame frame).2 with
      | none => s.video
      | some cmd => (Video.step features display s.video (.arrive cmd)).getD s.video }

/-- The rest of the closure in `main`: after a failure it runs screen capture without a control
channel, unless that was the source already. -/
def State.fallback (s : State) : Option State :=
  if s.video.phase = .returned false ∧ s.fellBack = false ∧ cfg₀.source ≠ "screen" then
    some { s with video := .start (screenConfig cfg₀) false, fellBack := true }
  else none

def step (s : State) : Action E → Option State
  | .frame frame => some (s.onFrame features display frame)
  | .video (.arrive _) => none
  | .video b => (Video.step features display s.video b).map fun v => { s with video := v }
  | .fallback => s.fallback cfg₀

/-- Every call of `run_screen_capture` sees a positive frame rate, and its division does not panic. -/
structure FrameRateSafe (s : State) : Prop where
  call : s.video.phase = .setup .screen → 1 ≤ s.video.cfg.fps
  division : s.video.phase ≠ .panicked

def lastFps : List VideoControl → Option UInt32
  | [] => none
  | .changeResolution _ _ :: cmds => lastFps cmds
  | .changeFps fps :: cmds => some ((lastFps cmds).getD fps)

/-- Screen capture is not started when the last frame rate asked for is zero. -/
def NoZeroFps (_ : List (Action E)) (s : State) : Action E → Prop
  | .video (.begin _) => s.video.cfg.source = "screen" → features.screenCapture = true →
      lastFps s.video.received ≠ some 0
  | _ => True

variable {features display cfg₀} {hid : HidThread} {cfg : VideoConfig} {ctrl : Bool}
variable {as : List (Action E)} {bs : List (Video.Action E)} {s s' : State} {a : Action E}
variable {v v' : Video.State}

theorem foldl_apply_fps (cmds : List VideoControl) (cfg : VideoConfig) :
    (cmds.foldl VideoConfig.apply cfg).fps = (lastFps cmds).getD cfg.fps := by
  induction cmds generalizing cfg with
  | nil => rfl
  | cons cmd cmds ih =>
    rw [List.foldl_cons,ih]
    cases cmd <;> rfl

theorem one_le_iff_ne_zero (n : UInt32) : 1 ≤ n ↔ n ≠ 0 := by
  rw [UInt32.le_iff_toNat_le,ne_eq,← UInt32.toNat_inj]
  have h₁ : (1 : UInt32).toNat = 1 := rfl
  have h₀ : (0 : UInt32).toNat = 0 := rfl
  omega

/-- The source of a configuration never changes, and decides between the screen and the back ends
for capture devices. -/
structure SourceKept (cfg : VideoConfig) (v : Video.State) : Prop where
  source : v.cfg.source = cfg.source
  setup : ∀ b, v.phase = .setup b → (b = .screen ↔ cfg.source = "screen")
  looping : ∀ b cfgMut, v.phase = .looping b cfgMut → (b = .screen ↔ cfg.source = "screen")

theorem SourceKept.of_phase (h : v.cfg.source = cfg.source) (hsetup : ∀ b, v.phase ≠ .setup b)
    (hlooping : ∀ b cfgMut, v.phase ≠ .looping b cfgMut) : SourceKept cfg v :=
  ⟨h,fun b hb => absurd hb (hsetup b),fun b cfgMut hb => absurd hb (hlooping b cfgMut)⟩

theorem SourceKept.fail (h : v.cfg.source = cfg.source) {b : Backend}
    (hb : b = .screen ↔ cfg.source = "screen") (msg : List Char) : SourceKept cfg (v.fail b msg) := by
  cases b with
  | hw =>
    refine ⟨h,?_,by rintro _ _ ⟨⟩⟩
    rintro _ ⟨⟩
    simpa using hb
  | sw =>
    refine ⟨h,?_,by rintro _ _ ⟨⟩⟩
    rintro _ ⟨⟩
    simpa using hb
  | mjpeg => exact .of_phase h (by rintro _ ⟨⟩) (by rintro _ _ ⟨⟩)
  | screen => exact .of_phase h (by rintro _ ⟨⟩) (by rintro _ _ ⟨⟩)

theorem parseRestart_source (cfg : VideoConfig) (msg : List Char) :
    (parseRestart cfg msg).source = cfg.source := by
  unfold parseRestart
  split <;> rfl

theorem foldl_apply_source (cmds : List VideoControl) (cfg : VideoConfig) :
    (cmds.foldl VideoConfig.apply cfg).source = cfg.source := by
  rw [← foldl_apply]

theorem SourceKept.begin (h : SourceKept cfg v) (device : Except E Unit) :
    SourceKept cfg (v.begin features device) := by
  unfold State.begin
  split
  · rename_i hsource
    rw [h.source] at hsource
    split
    · refine ⟨h.source,?_,by rintro _ _ ⟨⟩⟩
      rintro _ ⟨⟩
      simpa using hsource
    · exact .of_phase h.source (by rintro _ ⟨⟩) (by rintro _ _ ⟨⟩)
  · rename_i hsource
    rw [h.source] at hsource
    split
    · cases device with
      | error e => exact .of_phase h.source (by rintro _ ⟨⟩) (by rintro _ _ ⟨⟩)
      | ok _ =>
        refine ⟨h.source,?_,by rintro _ _ ⟨⟩⟩
        rintro _ ⟨⟩
        cases v.cfg.hwEncode <;> simpa using hsource
    · exact .of_phase h.source (by rintro _ ⟨⟩) (by rintro _ _ ⟨⟩)

theorem SourceKept.configure (h : SourceKept cfg v) {b : Backend} (hphase : v.phase = .setup b)
    {result : SetupResult E} (hs : v.configure display b result = some v') : SourceKept cfg v' := by
  have hb := h.setup b hphase
  cases result with
  | ok =>
    cases hs
    split
    · exact .of_phase h.source (by rintro _ ⟨⟩) (by rintro _ _ ⟨⟩)
    · refine ⟨h.source,by rintro _ ⟨⟩,?_⟩
      rintro _ _ ⟨⟩
      exact hb
  | unsupported =>
    obtain ⟨text,_,rfl⟩ := Option.map_eq_some_iff.mp hs
    exact .fail h.source hb _
  | error e =>
    cases hs
    exact .fail h.source hb _

theorem SourceKept.poll (h : SourceKept cfg v) {b : Backend} {cfgMut : VideoConfig}
    (hphase : v.phase = .looping b cfgMut) (outcome : Video.Outcome E) :
    SourceKept cfg (v.poll display b cfgMut outcome) := by
  have hb := h.looping b cfgMut hphase
  cases hr : (checkVideoCtrl v.ctrlRx cfgMut).2 with
  | true =>
    rw [poll_of_restart outcome hr]
    have hfail := SourceKept.fail (v := v.takeCommands) h.source hb
      (restartText (checkVideoCtrl v.ctrlRx cfgMut).1)
    exact ⟨hfail.source,hfail.setup,hfail.looping⟩
  | false =>
    rw [poll_of_no_restart outcome hr]
    cases outcome with
    | again =>
      refine ⟨h.source,by rintro _ ⟨⟩,?_⟩
      rintro _ _ ⟨⟩
      exact hb
    | closed => exact .of_phase h.source (by rintro _ ⟨⟩) (by rintro _ _ ⟨⟩)
    | error e => exact .fail (v := v.takeCommands) h.source hb (display e)

theorem SourceKept.step {b : Video.Action E} (h : SourceKept cfg v)
    (hs : Video.step features display v b = some v') : SourceKept cfg v' := by
  have hs := step_eq_some.mp hs
  cases b with
  | arrive cmd =>
    obtain ⟨_,_,rfl⟩ := hs
    exact ⟨h.source,h.setup,h.looping⟩
  | begin device =>
    obtain ⟨_,rfl⟩ := hs
    exact h.begin device
  | configure result =>
    obtain ⟨b,hphase,hs⟩ := hs
    exact h.configure hphase hs
  | poll outcome =>
    obtain ⟨b,cfgMut,hphase,rfl⟩ := hs
    exact h.poll hphase outcome
  | parse =>
    obtain ⟨msg,_,rfl⟩ := hs
    unfold State.parse
    split
    · exact .of_phase ((parseRestart_source _ _).trans h.source) (by rintro _ ⟨⟩) (by rintro _ _ ⟨⟩)
    · exact .of_phase h.source (by rintro _ ⟨⟩) (by rintro _ _ ⟨⟩)
  | drain =>
    obtain ⟨_,rfl⟩ := hs
    exact .of_phase ((foldl_apply_source _ _).trans h.source) (by rintro _ ⟨⟩) (by rintro _ _ ⟨⟩)

theorem sourceKept (h : Run (Video.step features display) (.start cfg ctrl) bs v) : SourceKept cfg v := by
  refine h.invariant (P := fun _ v => SourceKept cfg v) ?_ fun _ _ _ _ _ hkept hs => hkept.step hs
  exact .of_phase rfl (by rintro _ ⟨⟩) (by rintro _ _ ⟨⟩)

theorem screen_guarded (h : Run (Video.step features display) (.start cfg ctrl) bs v)
    (hsource : cfg.source = "screen") :
    GuardedRun (Video.step features display) (.start cfg ctrl) NoSwallowedRestart bs v := by
  induction h with
  | init => exact .init
  | @next bs v v' b hprev hs ih =>
    refine .next ih ?_ hs
    cases b with
    | poll outcome =>
      intro b cfgMut hphase hb
      have hscreen := ((sourceKept hprev).looping b cfgMut hphase).mpr hsource
      subst hscreen
      simp at hb
    | _ => trivial

theorem step_video (hs : step features display cfg₀ s a = some s') :
    s'.video = s.video ∨ s'.video = .start (screenConfig cfg₀) false ∨
      ∃ b, Video.step features display s.video b = some s'.video ∧
        ∀ device, b = .begin device → a = .video (.begin device) := by
  cases a with
  | frame frame =>
    cases hs
    cases hcmd : (s.hid.onFrame frame).2 with
    | none => exact .inl (by simp [State.onFrame,hcmd])
    | some cmd =>
      cases harrive : Video.step features display s.video (.arrive cmd) with
      | none => exact .inl (by simp [State.onFrame,hcmd,harrive])
      | some v => exact .inr (.inr ⟨.arrive cmd,by simp [State.onFrame,hcmd,harrive],by rintro _ ⟨⟩⟩)
  | video b =>
    cases b with
    | arrive cmd => cases hs
    | _ =>
      obtain ⟨v,hv,rfl⟩ := Option.map_eq_some_iff.mp hs
      exact .inr (.inr ⟨_,hv,fun _ he => congrArg Action.video he⟩)
  | fallback =>
    simp only [step,State.fallback] at hs
    split at hs
    · cases hs
      exact .inr (.inl rfl)
    · cases hs

/-- The video thread is always in a run of `run_with_ctrl` that began with the configured rate. -/
theorem video_run (h : Run (step features display cfg₀) (.start cfg₀ hid) as s) :
    ∃ cfg ctrl bs, cfg.fps = cfg₀.fps ∧ Run (Video.step features display) (.start cfg ctrl) bs s.video := by
  induction h with
  | init => exact ⟨cfg₀,true,[],rfl,.init⟩
  | next _ hs ih =>
    obtain ⟨cfg,ctrl,bs,hfps,hrun⟩ := ih
    rcases step_video hs with hv | hv | ⟨b,hv,_⟩
    · exact ⟨cfg,ctrl,bs,hfps,hv ▸ hrun⟩
    · exact ⟨screenConfig cfg₀,false,[],rfl,hv ▸ .init⟩
    · exact ⟨cfg,ctrl,_,hfps,.next hrun hv⟩

theorem safe_of_video_step {b : Video.Action E} (hcall : v.phase = .setup .screen → 1 ≤ v.cfg.fps)
    (hdivision : v.phase ≠ .panicked) (hb : ∀ device, b ≠ .begin device)
    (hs : Video.step features display v b = some v') :
    (v'.phase = .setup .screen → 1 ≤ v'.cfg.fps) ∧ v'.phase ≠ .panicked := by
  have hfail : ∀ (v : Video.State) b msg,
      (v.fail b msg).phase ≠ .setup .screen ∧ (v.fail b msg).phase ≠ .panicked := by
    intro v b msg
    cases b <;> simp [State.fail,State.goto]
  have hs := step_eq_some.mp hs
  cases b with
  | arrive cmd =>
    obtain ⟨_,_,rfl⟩ := hs
    exact ⟨hcall,hdivision⟩
  | begin device => exact absurd rfl (hb device)
  | configure result =>
    obtain ⟨b,hphase,hs⟩ := hs
    cases result with
    | ok =>
      cases hs
      split
      · rename_i hzero
        obtain ⟨rfl,hzero⟩ := hzero
        exact absurd hzero ((one_le_iff_ne_zero _).mp (hcall hphase))
      · simp [State.goto]
    | unsupported =>
      obtain ⟨text,_,rfl⟩ := Option.map_eq_some_iff.mp hs
      exact ⟨fun h => absurd h (hfail _ _ _).1,(hfail _ _ _).2⟩
    | error e =>
      cases hs
      exact ⟨fun h => absurd h (hfail _ _ _).1,(hfail _ _ _).2⟩
  | poll outcome =>
    obtain ⟨b,cfgMut,hphase,rfl⟩ := hs
    cases hr : (checkVideoCtrl v.ctrlRx cfgMut).2 with
    | true =>
      rw [poll_of_restart outcome hr]
      exact ⟨fun h => absurd h (hfail _ _ _).1,(hfail _ _ _).2⟩
    | false =>
      rw [poll_of_no_restart outcome hr]
      cases outcome with
      | again => simp [State.goto]
      | closed => simp [State.goto]
      | error e => exact ⟨fun h => absurd h (hfail _ _ _).1,(hfail _ _ _).2⟩
  | parse =>
    obtain ⟨msg,_,rfl⟩ := hs
    unfold State.parse
    split <;> simp [State.goto]
  | drain =>
    obtain ⟨_,rfl⟩ := hs
    simp [State.drain]

/-- At the head of the loop the screen is about to be captured at the rate asked for last. -/
theorem begin_safe_iff (hdisplay : ∀ e, Text.contains restartMarker (display e) = false)
    (hrun : Run (Video.step features display) (.start cfg ctrl) bs v) (hfps : 1 ≤ cfg.fps)
    {device : Except E Unit} (hs : Video.step features display v (.begin device) = some v') :
    (v.cfg.source = "screen" → features.screenCapture = true → lastFps v.received ≠ some 0) ↔
      (v'.phase = .setup .screen → 1 ≤ v'.cfg.fps) ∧ v'.phase ≠ .panicked := by
  obtain ⟨hphase,rfl⟩ := step_eq_some.mp hs
  have hsource := (sourceKept hrun).source
  by_cases hscreen : v.cfg.source = "screen"
  · have hup := upToDate_of_guarded hdisplay (screen_guarded hrun (hsource ▸ hscreen))
    simp only [UpToDate,hphase] at hup
    have hrate : v.cfg.fps = (lastFps v.received).getD cfg.fps := by
      rw [hup.1,State.asked,foldl_apply_fps]
    cases hfeature : features.screenCapture with
    | false => simp [State.begin,State.goto,hscreen,hfeature]
    | true =>
      simp only [State.begin,State.goto,hscreen,hfeature,if_true,forall_const,hrate,one_le_iff_ne_zero]
      cases hlast : lastFps v.received with
      | none => simpa using (one_le_iff_ne_zero _).mp hfps
      | some fps => simp
  · have hother : (v.begin features device).phase ≠ .setup .screen ∧
        (v.begin features device).phase ≠ .panicked := by
      unfold State.begin
      rw [if_neg hscreen]
      split
      · cases device with
        | error e => simp [State.goto]
        | ok _ => cases v.cfg.hwEncode <;> simp [State.goto]
      · simp [State.goto]
    simp [hscreen,hother]

/-- Every call of `run_screen_capture` sees a positive frame rate exactly if screen capture is never
started while the last frame rate asked for is zero. -/
theorem frame_rate_iff (hdisplay : ∀ e, Text.contains restartMarker (display e) = false)
    (hfps : 1 ≤ cfg₀.fps) (hrun : Run (step features display cfg₀) (.start cfg₀ hid) as s) :
    Always (step features display cfg₀) (.start cfg₀ hid) (fun _ => FrameRateSafe) as ↔
      GuardedRun (step features display cfg₀) (.start cfg₀ hid) (NoZeroFps features) as s := by
  refine hrun.always_iff_guarded ⟨by rintro ⟨⟩,by rintro ⟨⟩⟩ ?_
  intro as s a s' hg hsafe hs
  obtain ⟨cfg,ctrl,bs,hcfg,hvideo⟩ := video_run hg.run
  by_cases hbegin : ∃ device, a = .video (.begin device)
  · obtain ⟨device,rfl⟩ := hbegin
    obtain ⟨v,hv,rfl⟩ := Option.map_eq_some_iff.mp hs
    refine (begin_safe_iff hdisplay hvideo (hcfg ▸ hfps) hv).trans ?_
    exact ⟨fun h => ⟨h.1,h.2⟩,fun h => ⟨h.call,h.division⟩⟩
  · have hfree : NoZeroFps features as s a := by
      unfold NoZeroFps
      split
      · exact absurd ⟨_,rfl⟩ hbegin
      · trivial
    refine ⟨fun _ => ?_,fun _ => hfree⟩
    rcases step_video hs with hv | hv | ⟨b,hv,hb⟩
    · exact ⟨hv ▸ hsafe.call,hv ▸ hsafe.division⟩
    · exact ⟨by rw [hv]; rintro ⟨⟩,by rw [hv]; rintro ⟨⟩⟩
    · have h := safe_of_video_step hsafe.call hsafe.division
        (fun device he => hbegin ⟨device,hb device he⟩) hv
      exact ⟨h.1,h.2⟩

end Machine

abbrev screenStep : State → Action Unit → Option State :=
  step defaultFeatures noDevice (screenConfig hardwareConfig)

/-- The screen is captured from the start, with both HID devices open. -/
def screenStart : State := .start (screenConfig hardwareConfig) (.gadget { kbd := true, mouse := true })

def fpsFrame (fps : UInt8) : Frame := [0x10,0x02,fps,0,0,0,0,0]

/-- A frame arrives during a capture, and the capture is started again. -/
def restartWith (frame : Frame) : List (Action Unit) :=
  [.video (.begin (.ok ())),.video (.configure .ok),.frame frame,.video (.poll .again),.video .parse,
    .video .drain,.video (.begin (.ok ())),.video (.configure .ok)]

theorem frame_rate_iff_60 :
    ∃ s, Run screenStep screenStart (restartWith (fpsFrame 60)).reverse s ∧
      (Always screenStep screenStart (fun _ => FrameRateSafe) (restartWith (fpsFrame 60)).reverse ↔
        GuardedRun screenStep screenStart (NoZeroFps defaultFeatures)
          (restartWith (fpsFrame 60)).reverse s) := by
  obtain ⟨s,hrun,_⟩ := exists_run_of_replay screenStep screenStart (restartWith (fpsFrame 60))
    (fun s => s.video.cfg.fps = 60) (by decide)
  exact ⟨s,hrun,frame_rate_iff noDevice_text (by decide) hrun⟩

/-- Eight bytes from the data channel take the whole agent down. -/
theorem zero_fps_frame_panics :
    ¬ ∀ as s, Run screenStep screenStart as s → FrameRateSafe s := by
  intro h
  obtain ⟨s,hrun,hp⟩ := exists_run_of_replay screenStep screenStart (restartWith (fpsFrame 0))
    (fun s => s.video.phase = .panicked) (by decide)
  exact (h _ s hrun).division (of_decide_eq_true hp)

end FrameRate
end AnyKvm
