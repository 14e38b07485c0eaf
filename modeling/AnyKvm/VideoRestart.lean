import AnyKvm.VideoCapture

/-! Whether the commands on the control channel reach the next capture attempt.
A back end asks for a restart by failing with a text that `run_with_ctrl` parses, so a
request is served exactly if nothing on the way takes the failure for another one. -/
namespace AnyKvm
namespace Video

open Transition Hid

section Check
variable (cmds : List VideoControl) (cfg : VideoConfig)

theorem checkLoop_fst (restart : Bool) :
    (checkLoop cmds cfg restart).1 = cmds.foldl VideoConfig.apply cfg := by
  induction cmds generalizing cfg restart with
  | nil => rfl
  | cons cmd cmds ih =>
    cases cmd with
    | changeResolution width height =>
      rw [checkLoop,List.foldl_cons]
      split
      · exact ih _ _
      · rename_i h
        obtain ⟨rfl,rfl⟩ : width = cfg.width ∧ height = cfg.height := by simpa using h
        exact ih cfg restart
    | changeFps fps =>
      rw [checkLoop,List.foldl_cons]
      split
      · exact ih _ _
      · rename_i h
        obtain rfl : fps = cfg.fps := by simpa using h
        exact ih cfg restart

theorem checkLoop_snd {restart : Bool} (h : (checkLoop cmds cfg restart).2 = false) :
    restart = false ∧ cmds.foldl VideoConfig.apply cfg = cfg := by
  induction cmds generalizing restart with
  | nil => exact ⟨h,rfl⟩
  | cons cmd cmds ih =>
    have htrue : ∀ cfg', (checkLoop cmds cfg' true).2 = true := by
      intro cfg'
      clear ih h
      induction cmds generalizing cfg' with
      | nil => rfl
      | cons cmd cmds ih => cases cmd <;> simp only [checkLoop] <;> split <;> exact ih _
    cases cmd with
    | changeResolution width height =>
      rw [checkLoop] at h
      split at h
      · rw [htrue] at h
        cases h
      · rename_i hsame
        obtain ⟨rfl,rfl⟩ : width = cfg.width ∧ height = cfg.height := by simpa using hsame
        exact ih h
    | changeFps fps =>
      rw [checkLoop] at h
      split at h
      · rw [htrue] at h
        cases h
      · rename_i hsame
        obtain rfl : fps = cfg.fps := by simpa using hsame
        exact ih h

theorem checkVideoCtrl_fst (ctrlRx : Option (List VideoControl)) :
    (checkVideoCtrl ctrlRx cfg).1 = (ctrlRx.getD []).foldl VideoConfig.apply cfg := by
  cases ctrlRx with
  | none => rfl
  | some cmds => exact checkLoop_fst cmds cfg false

theorem checkVideoCtrl_snd {ctrlRx : Option (List VideoControl)} (h : (checkVideoCtrl ctrlRx cfg).2 = false) :
    (ctrlRx.getD []).foldl VideoConfig.apply cfg = cfg := by
  cases ctrlRx with
  | none => rfl
  | some cmds => exact (checkLoop_snd cmds cfg h).2

end Check

theorem parseU32_showDecimal (n : UInt32) : parseU32 (Text.showDecimal n.toNat) = some n := by
  rw [parseU32,Text.parseDecimal_showDecimal n.toNat_lt]
  simp

theorem restartText_payload (cfg : VideoConfig) :
    (Text.upTo restartMarker ((Text.after? restartMarker (restartText cfg)).getD [])).splitOn ':' =
      [Text.showDecimal cfg.width.toNat,Text.showDecimal cfg.height.toNat,
        Text.showDecimal cfg.fps.toNat] := by
  have hcolon : ∀ n : ℕ, ':' ∉ Text.showDecimal n := fun n => Text.not_mem_showDecimal n (by decide)
  have hv : ∀ n : ℕ, 'v' ∉ Text.showDecimal n := fun n => Text.not_mem_showDecimal n (by decide)
  have hsplit : ([':'].intercalate [Text.showDecimal cfg.width.toNat,Text.showDecimal cfg.height.toNat,
      Text.showDecimal cfg.fps.toNat]).splitOn ':' = [Text.showDecimal cfg.width.toNat,
        Text.showDecimal cfg.height.toNat,Text.showDecimal cfg.fps.toNat] :=
    List.splitOn_intercalate ':' (by simp [hcolon]) (by simp)
  rw [restartText,Text.after?_append,Option.getD_some,Text.upTo_eq_self (a := 'v') (by decide) (by simp [hv]),
    ← hsplit]
  simp [List.intercalate,List.intersperse]

/-- A restart request that reaches the parser decodes to the settings it was made from. -/
theorem parseRestart_restartText (cfg asked : VideoConfig) :
    parseRestart cfg (restartText asked) =
      { cfg with width := asked.width, height := asked.height, fps := asked.fps } := by
  rw [parseRestart,restartText_payload]
  simp [parseU32_showDecimal]

section Machine
variable {E : Type*} {features : Features} {display : E → List Char}
variable {cfg₀ : VideoConfig} {ctrl : Bool} {as : List (Action E)} {s s' : State} {a : Action E}

/-- The configuration that the commands received so far ask for. -/
def State.asked (s : State) (cfg₀ : VideoConfig) : VideoConfig := s.received.foldl VideoConfig.apply cfg₀

/-- Every capture attempt uses the settings asked for so far, and every restart request is where the
parser finds it and decodes to the settings that `check_video_ctrl` computed. -/
structure CommandsKept (cfg₀ : VideoConfig) (s : State) : Prop where
  attempt : ∀ b, s.phase = .setup b → s.cfg.settings = (s.asked cfg₀).settings
  request : ∀ r, s.raised = some r → ∃ msg, s.phase = .matching msg ∧
    Text.contains restartMarker msg = true ∧ (parseRestart s.cfg msg).settings = r

/-- Commands that change the configuration do not come to light in a hardware or a YUYV capture. -/
def NoSwallowedRestart (_ : List (Action E)) (s : State) : Action E → Prop
  | .poll _ => ∀ b cfgMut, s.phase = .looping b cfgMut → b = .hw ∨ b = .sw →
      (checkVideoCtrl s.ctrlRx cfgMut).2 = false
  | _ => True

/-- The configuration is up to date wherever it is read, and a pending request carries what it lacks. -/
def UpToDate (cfg₀ : VideoConfig) (s : State) : Prop :=
  match s.phase with
  | .head | .setup _ | .drain => s.cfg = s.asked cfg₀ ∧ s.raised = none
  | .looping _ cfgMut => s.cfg = s.asked cfg₀ ∧ cfgMut = s.asked cfg₀ ∧ s.raised = none
  | .matching msg => msg = restartText (s.asked cfg₀) ∧ s.raised = some (s.asked cfg₀).settings ∧
      parseRestart s.cfg msg = s.asked cfg₀ ∨ Text.contains restartMarker msg = false ∧ s.raised = none
  | .returned _ | .panicked => s.raised = none

theorem UpToDate.commandsKept (h : UpToDate cfg₀ s) : CommandsKept cfg₀ s where
  attempt b hb := by
    simp only [UpToDate,hb] at h
    rw [h.1]
  request r hr := by
    cases hphase : s.phase with
    | matching msg =>
      simp only [UpToDate,hphase,hr] at h
      rcases h with ⟨rfl,hraised,hparse⟩ | ⟨_,hnone⟩
      · exact ⟨_,rfl,Text.contains_append _ _,by rw [hparse,Option.some.inj hraised]⟩
      · cases hnone
    | _ => simp [UpToDate,hphase,hr] at h

theorem foldl_apply (cmds : List VideoControl) (cfg : VideoConfig) :
    { cfg with
      width := (cmds.foldl VideoConfig.apply cfg).width,
      height := (cmds.foldl VideoConfig.apply cfg).height,
      fps := (cmds.foldl VideoConfig.apply cfg).fps } = cmds.foldl VideoConfig.apply cfg := by
  induction cmds generalizing cfg with
  | nil => rfl
  | cons cmd cmds ih =>
    rw [List.foldl_cons,← ih]
    cases cmd <;> rfl

theorem asked_takeCommands :
    s.takeCommands.asked cfg₀ = (s.ctrlRx.getD []).foldl VideoConfig.apply (s.asked cfg₀) := by
  rw [State.takeCommands,State.asked,State.asked,List.foldl_append]

theorem UpToDate.begin (h : UpToDate cfg₀ s) (hphase : s.phase = .head) (device : Except E Unit) :
    UpToDate cfg₀ (s.begin features device) := by
  simp only [UpToDate,hphase] at h
  unfold State.begin
  split
  · split
    · exact h
    · exact h.2
  · split
    · cases device with
      | error e => exact h.2
      | ok _ => exact h
    · exact h.2

theorem UpToDate.fail (hcfg : s.cfg = s.asked cfg₀) (hraised : s.raised = none) (b : Backend)
    {msg : List Char} (hmsg : Text.contains restartMarker msg = false) : UpToDate cfg₀ (s.fail b msg) := by
  cases b with
  | hw => exact ⟨hcfg,hraised⟩
  | sw => exact ⟨hcfg,hraised⟩
  | mjpeg => exact .inr ⟨hmsg,hraised⟩
  | screen => exact .inr ⟨hmsg,hraised⟩

theorem UpToDate.configure (hdisplay : ∀ e, Text.contains restartMarker (display e) = false)
    (h : UpToDate cfg₀ s) {b : Backend} (hphase : s.phase = .setup b) {result : SetupResult E}
    (hs : s.configure display b result = some s') : UpToDate cfg₀ s' := by
  simp only [UpToDate,hphase] at h
  cases result with
  | ok =>
    cases hs
    split
    · exact h.2
    · exact ⟨h.1,h.1,h.2⟩
  | unsupported =>
    cases b with
    | hw => cases hs; exact .fail h.1 h.2 .hw (by decide)
    | sw => cases hs; exact .fail h.1 h.2 .sw (by decide)
    | mjpeg => cases hs; exact .fail h.1 h.2 .mjpeg (by decide)
    | screen => cases hs
  | error e =>
    cases hs
    exact .fail h.1 h.2 b (hdisplay e)

theorem UpToDate.poll (hdisplay : ∀ e, Text.contains restartMarker (display e) = false)
    (h : UpToDate cfg₀ s) {b : Backend} {cfgMut : VideoConfig} (hphase : s.phase = .looping b cfgMut)
    (hc : b = .hw ∨ b = .sw → (checkVideoCtrl s.ctrlRx cfgMut).2 = false) (outcome : Outcome E) :
    UpToDate cfg₀ (s.poll display b cfgMut outcome) := by
  simp only [UpToDate,hphase] at h
  obtain ⟨hcfg,hmut,hraised⟩ := h
  have hasked : (checkVideoCtrl s.ctrlRx cfgMut).1 = s.takeCommands.asked cfg₀ := by
    rw [checkVideoCtrl_fst,asked_takeCommands,hmut]
  cases hr : (checkVideoCtrl s.ctrlRx cfgMut).2 with
  | true =>
    have hparse : parseRestart s.cfg (restartText (s.takeCommands.asked cfg₀)) = s.takeCommands.asked cfg₀ := by
      rw [parseRestart_restartText,asked_takeCommands,← hcfg,foldl_apply]
    rw [poll_of_restart outcome hr,hasked]
    cases b with
    | hw => rw [hc (.inl rfl)] at hr; cases hr
    | sw => rw [hc (.inr rfl)] at hr; cases hr
    | mjpeg => exact .inl ⟨rfl,rfl,hparse⟩
    | screen => exact .inl ⟨rfl,rfl,hparse⟩
  | false =>
    have hsame : s.takeCommands.asked cfg₀ = s.asked cfg₀ := by
      rw [asked_takeCommands,← hmut,checkVideoCtrl_snd cfgMut hr]
    have hcfg' : s.takeCommands.cfg = s.takeCommands.asked cfg₀ := by rw [hsame]; exact hcfg
    rw [poll_of_no_restart outcome hr]
    cases outcome with
    | again => exact ⟨hcfg',hasked,hraised⟩
    | closed => exact hraised
    | error e => exact .fail hcfg' hraised b (hdisplay e)

theorem UpToDate.parse (h : UpToDate cfg₀ s) {msg : List Char} (hphase : s.phase = .matching msg) :
    UpToDate cfg₀ (s.parse msg) := by
  simp only [UpToDate,hphase] at h
  unfold State.parse
  rcases h with ⟨rfl,hraised,hparse⟩ | ⟨hmsg,hraised⟩
  · rw [restartText] at hparse ⊢
    rw [if_pos (Text.contains_append _ _)]
    exact ⟨hparse,rfl⟩
  · rw [if_neg (by simp [hmsg])]
    exact hraised

theorem UpToDate.drain (h : UpToDate cfg₀ s) (hphase : s.phase = .drain) : UpToDate cfg₀ s.drain := by
  simp only [UpToDate,hphase] at h
  have hasked : s.drain.cfg = s.takeCommands.asked cfg₀ := by
    rw [asked_takeCommands,← h.1]
    rfl
  exact ⟨hasked,h.2⟩

theorem UpToDate.step (hdisplay : ∀ e, Text.contains restartMarker (display e) = false)
    (h : UpToDate cfg₀ s) (hc : NoSwallowedRestart as s a) (hs : Video.step features display s a = some s') :
    UpToDate cfg₀ s' := by
  have hs := step_eq_some.mp hs
  cases a with
  | arrive cmd =>
    obtain ⟨_,_,rfl⟩ := hs
    exact h
  | begin device =>
    obtain ⟨hphase,rfl⟩ := hs
    exact h.begin hphase device
  | configure result =>
    obtain ⟨b,hphase,hs⟩ := hs
    exact h.configure hdisplay hphase hs
  | poll outcome =>
    obtain ⟨b,cfgMut,hphase,rfl⟩ := hs
    exact h.poll hdisplay hphase (hc b cfgMut hphase) outcome
  | parse =>
    obtain ⟨msg,hphase,rfl⟩ := hs
    exact h.parse hphase
  | drain =>
    obtain ⟨hphase,rfl⟩ := hs
    exact h.drain hphase

theorem upToDate_start : UpToDate cfg₀ (State.start cfg₀ ctrl) := ⟨rfl,rfl⟩

theorem upToDate_of_guarded (hdisplay : ∀ e, Text.contains restartMarker (display e) = false)
    (h : GuardedRun (step features display) (State.start cfg₀ ctrl) NoSwallowedRestart as s) :
    UpToDate cfg₀ s := by
  refine h.invariant (P := fun _ s => UpToDate cfg₀ s) upToDate_start ?_
  intro as s a s' _ hup hc hs
  exact hup.step hdisplay hc hs

/-- A request that a hardware or a YUYV capture raises is nowhere to be found afterwards. -/
theorem CommandsKept.noSwallowedRestart (hs : step features display s a = some s')
    (hkept : CommandsKept cfg₀ s') : NoSwallowedRestart as s a := by
  cases a with
  | poll outcome =>
    intro b cfgMut hphase hb
    by_contra hr
    obtain ⟨b',cfgMut',hphase',rfl⟩ := step_eq_some.mp hs
    obtain ⟨rfl,rfl⟩ : b = b' ∧ cfgMut = cfgMut' := by simpa [hphase] using hphase'
    have hrequest := hkept.request (checkVideoCtrl s.ctrlRx cfgMut).1.settings
    have htrue : (checkVideoCtrl s.ctrlRx cfgMut).2 = true := by simpa using hr
    rw [poll_of_restart outcome htrue] at hrequest
    obtain ⟨msg,hmsg,_⟩ := hrequest rfl
    rcases hb with rfl | rfl <;> cases hmsg
  | _ => trivial

/-- A run serves all commands exactly if those that change the configuration never come to light
in a hardware or a YUYV capture. -/
theorem commands_kept_iff (hdisplay : ∀ e, Text.contains restartMarker (display e) = false)
    (hrun : Run (step features display) (State.start cfg₀ ctrl) as s) :
    Always (step features display) (State.start cfg₀ ctrl) (fun _ => CommandsKept cfg₀) as ↔
      GuardedRun (step features display) (State.start cfg₀ ctrl) NoSwallowedRestart as s := by
  refine hrun.always_iff_guarded upToDate_start.commandsKept ?_
  · intro as s a s' hg _ hs
    exact ⟨fun hc => ((upToDate_of_guarded hdisplay hg).step hdisplay hc hs).commandsKept,
      fun hk => hk.noSwallowedRestart hs⟩

end Machine

/-- The features that are on by default. -/
def defaultFeatures : Features := ⟨true,true⟩

def noDevice (_ : Unit) : List Char := "No such device (os error 19)".toList

theorem noDevice_text (e : Unit) : Text.contains restartMarker (noDevice e) = false := by
  cases e
  decide

/-- A capture card that delivers H.264. -/
def hardwareConfig : VideoConfig := ⟨"v4l2","/dev/video0",1920,1080,30,4000,true⟩

abbrev captureStep : State → Action Unit → Option State := step defaultFeatures noDevice

theorem commands_kept_iff_screen :
    ∃ s, Run captureStep (State.start { hardwareConfig with source := "screen" } true)
        [.drain,.parse,.poll .again,.arrive (.changeFps 60),.configure .ok,.begin (.ok ())] s ∧
      (Always captureStep (State.start { hardwareConfig with source := "screen" } true)
          (fun _ => CommandsKept { hardwareConfig with source := "screen" })
          [.drain,.parse,.poll .again,.arrive (.changeFps 60),.configure .ok,.begin (.ok ())] ↔
        GuardedRun captureStep (State.start { hardwareConfig with source := "screen" } true)
          NoSwallowedRestart
          [.drain,.parse,.poll .again,.arrive (.changeFps 60),.configure .ok,.begin (.ok ())] s) := by
  obtain ⟨s,hrun,_⟩ := exists_run_of_replay captureStep
    (State.start { hardwareConfig with source := "screen" } true)
    [.begin (.ok ()),.configure .ok,.arrive (.changeFps 60),.poll .again,.parse,.drain]
    (fun s => s.cfg.fps = 60) (by decide)
  exact ⟨s,hrun,commands_kept_iff noDevice_text hrun⟩

/-- The frame rate is changed during a hardware capture: the YUYV capture that follows starts with
the old one. -/
theorem hardware_capture_loses_command :
    ¬ ∀ as s, Run captureStep (State.start hardwareConfig true) as s → CommandsKept hardwareConfig s := by
  intro h
  obtain ⟨s,hrun,hp⟩ := exists_run_of_replay captureStep (State.start hardwareConfig true)
    [.begin (.ok ()),.configure .ok,.arrive (.changeFps 60),.poll .again]
    (fun s => s.phase = .setup .sw ∧ s.cfg.settings ≠ (s.asked hardwareConfig).settings) (by decide)
  obtain ⟨hphase,hold⟩ := of_decide_eq_true hp
  exact hold ((h _ s hrun).attempt .sw hphase)

end Video
end AnyKvm
