import AnyKvm.FpsGuard
import AnyKvm.Transition
import Mathlib.Order.WithBot

/-! The quality that a page has asked for along every run: what each automatic step does to it. -/
namespace AnyKvm
namespace Quality
open Transition

/-- `openChannel` and `closeChannel` are the events of the data channel, `autoTimer` a call of `applyAutoQuality`
that was set up when the channel opened, `detect` a candidate pair in the statistics, and `adaptive` and `guard`
the two checks of the statistics loop at a frame rate. -/
inductive Action
  | openChannel
  | closeChannel
  | autoTimer
  | detect (relay : Bool)
  | changeResolution (val : Option (ℕ × ℕ))
  | changeFps (val : Option ℕ)
  | toggleAdaptive
  | adaptive (fps : ℚ)
  | guard (fps : ℚ)
  | reset
  deriving DecidableEq

namespace State
variable (s : State)

def openChannel : State :=
  { s with
    channelOpen := true
    autoTimers := if s.adaptiveEnabled = true ∧ s.manualOverride = false then s.autoTimers + 1 else s.autoTimers }

/-- `applyAutoQuality` where quality is automatic. -/
def autoQuality : State := if s.adaptiveEnabled = true ∧ s.manualOverride = false then s.applyAutoQuality else s

def detectConnectionType (relay : Bool) : State :=
  ({ s with connectionType := if relay = true then .relay else .p2p } : State).autoQuality

/-- The statistics loop checks against the rate of the profile, if there is one. -/
def adaptiveCheck (fps : ℚ) : State :=
  match s.currentProfile with
  | none => s
  | some p => s.adaptiveFpsCheck fps p.fps

end State

def step (s : State) : Action → Option State
  | .openChannel => some s.openChannel
  | .closeChannel => some { s with channelOpen := false }
  | .autoTimer =>
    if s.autoTimers = 0 then none else some ({ s with autoTimers := s.autoTimers - 1 } : State).applyAutoQuality
  | .detect relay => some (s.detectConnectionType relay)
  | .changeResolution val => if ∀ size ∈ val, size ∈ offeredSizes then some (s.changeResolution val) else none
  | .changeFps val => if ∀ fps ∈ val, fps ∈ offeredFps then some (s.changeFps val) else none
  | .toggleAdaptive => some s.toggleAdaptive
  | .adaptive fps => some (s.adaptiveCheck fps)
  | .guard fps => some (s.fpsGuardCheck fps)
  | .reset => some s.reset

/-- What was last asked for. A page that has not asked for a thing takes whatever the agent has. -/
def askedWidth : List Command → WithTop ℕ
  | [] => ⊤
  | .resolution w _ :: _ => WithTop.some w
  | .fps _ :: sent => askedWidth sent

def askedHeight : List Command → WithTop ℕ
  | [] => ⊤
  | .resolution _ h :: _ => WithTop.some h
  | .fps _ :: sent => askedHeight sent

def askedFps : List Command → WithTop ℕ
  | [] => ⊤
  | .resolution _ _ :: sent => askedFps sent
  | .fps fps :: _ => WithTop.some fps

/-- Nothing more is asked for, and less width or less frames. -/
def Lowers (before after : List Command) : Prop :=
  askedWidth after ≤ askedWidth before ∧ askedHeight after ≤ askedHeight before ∧ askedFps after ≤ askedFps before ∧
    (askedWidth after < askedWidth before ∨ askedFps after < askedFps before)

/-- An automatic step lowers what is asked for whenever it asks for anything. -/
def GoesDown (s : State) (a : Action) (s' : State) : Prop :=
  match a with
  | .adaptive _ | .guard _ => s'.sent ≠ s.sent → Lowers s.sent s'.sent
  | _ => True

/-- The width that a step down from `w` leads to. -/
def floorWidth (w : ℕ) : ℕ := if 1920 ≤ w then 1280 else if 1280 ≤ w then 720 else 640

/-- The least width on offer that is larger. -/
def leastWidth (w : ℕ) : ℕ := if 1920 ≤ w then 1920 else if 1280 ≤ w then 1024 else 720

/-- The adaptive check comes to a decision, and it is to go down. -/
def State.adaptiveFires (s : State) (p : Profile) (fps : ℚ) : Prop :=
  s.currentProfile = some p ∧ s.adaptiveEnabled = true ∧ s.manualOverride = false ∧ 5 ≤ s.fpsCheckCount + 1 ∧
    0 < fps ∧ fps < p.fps * (7 / 10)

def State.guardFires (s : State) (fps : ℚ) : Prop :=
  0 < fps ∧ 10 ≤ (s.pushFps fps).length ∧ State.average (s.pushFps fps) < 10 ∧ s.fpsGuardActive = false

/-- Where an automatic step starts from is not below what was asked for. -/
def Tracks (s : State) : Action → Prop
  | .adaptive fps => ∀ p, s.adaptiveFires p fps → s.channelOpen = true → 720 ≤ p.width →
      WithTop.some p.fps ≤ askedFps s.sent ∧
        (WithTop.some (leastWidth p.width) ≤ askedWidth s.sent ∨
          WithTop.some (floorWidth p.width) ≤ askedWidth s.sent ∧ WithTop.some p.fps < askedFps s.sent)
  | .guard fps => s.guardFires fps → s.channelOpen = true →
      (720 ≤ s.curW → WithTop.some (leastWidth s.curW) ≤ askedWidth s.sent) ∧
        (s.curW < 720 → 10 < s.curFps → WithTop.some 10 < askedFps s.sent)
  | _ => True

def Command.Offered : Command → Prop
  | .resolution w h => (w,h) ∈ offeredSizes
  | .fps rate => rate ∈ offeredFps

def State.Offered (s : State) : Prop :=
  (∀ p ∈ s.currentProfile, p.Offered) ∧ ∀ command ∈ s.sent, command.Offered

theorem lower_offered {w : ℕ} {size : ℕ × ℕ} (h : lower w = some size) : size ∈ offeredSizes := by
  rw [← lower_eq] at h
  have hladder : ∀ size ∈ resLadder, size ∈ offeredSizes := by decide
  exact hladder size (List.mem_of_getElem? h)

namespace State
variable {s : State}

theorem Offered.congr (hs : s.Offered) {t : State} (hp : t.currentProfile = s.currentProfile)
    (hsent : t.sent = s.sent) : t.Offered := by
  unfold State.Offered
  rwa [hp,hsent]

theorem changeResolutionDirect_offered (hs : s.Offered) {w h : ℕ} (hsize : (w,h) ∈ offeredSizes) :
    (s.changeResolutionDirect w h).Offered := by
  unfold changeResolutionDirect
  split
  · exact hs
  · refine ⟨hs.1,fun command hmem => ?_⟩
    rcases List.mem_cons.mp hmem with rfl | hold
    · exact hsize
    · exact hs.2 command hold

theorem changeFpsDirect_offered (hs : s.Offered) {fps : ℕ} (hfps : fps ∈ offeredFps) :
    (s.changeFpsDirect fps).Offered := by
  unfold changeFpsDirect
  split
  · exact hs
  · refine ⟨hs.1,fun command hmem => ?_⟩
    rcases List.mem_cons.mp hmem with rfl | hold
    · exact hfps
    · exact hs.2 command hold

theorem resizeProfile_offered (hs : s.Offered) {w h : ℕ} (hsize : (w,h) ∈ offeredSizes) :
    (s.resizeProfile w h).Offered := by
  refine ⟨fun q hq => ?_,hs.2⟩
  obtain ⟨p,hp,rfl⟩ := Option.map_eq_some_iff.mp hq
  exact ⟨hsize,(hs.1 p hp).2⟩

theorem retimeProfile_offered (hs : s.Offered) {fps : ℕ} (hfps : fps ∈ offeredFps) :
    (s.retimeProfile fps).Offered := by
  refine ⟨fun q hq => ?_,hs.2⟩
  obtain ⟨p,hp,rfl⟩ := Option.map_eq_some_iff.mp hq
  exact ⟨(hs.1 p hp).1,hfps⟩

theorem applyProfile_offered (hs : s.Offered) {p : Profile} (hp : p.Offered) : (s.applyProfile p).Offered := by
  have hentered : ({ s with currentProfile := some p } : State).Offered := by
    refine ⟨fun q hq => ?_,hs.2⟩
    cases Option.some.inj hq
    exact hp
  exact changeFpsDirect_offered (changeResolutionDirect_offered hentered hp.1) hp.2

theorem applyAutoQuality_offered (hs : s.Offered) : s.applyAutoQuality.Offered := by
  unfold applyAutoQuality
  split
  · exact applyProfile_offered hs (profiles_offered _ (by decide))
  · exact applyProfile_offered hs (profiles_offered _ (by decide))

theorem adaptiveCheck_offered (hs : s.Offered) (fps : ℚ) : (s.adaptiveCheck fps).Offered := by
  simp only [adaptiveCheck,adaptiveFpsCheck,lower_eq]
  cases hp : s.currentProfile with
  | none => exact hs
  | some p =>
    dsimp only
    split
    · exact hs
    split
    · exact hs.congr hp.symm rfl
    split
    · cases hsize : lower p.width with
      | none => exact hs.congr hp.symm rfl
      | some size =>
        have hoffered : ({ p with width := size.1, height := size.2 } : Profile).Offered :=
          ⟨lower_offered hsize,(hs.1 p hp).2⟩
        refine applyProfile_offered ?_ hoffered
        exact hs.congr hp.symm rfl
    · exact hs.congr hp.symm rfl

theorem forceMinimumUsable_offered (hs : s.Offered) : s.forceMinimumUsable.Offered := by
  simp only [forceMinimumUsable,lower_eq]
  cases hsize : lower s.curW with
  | some size =>
    have hoffered := lower_offered hsize
    exact resizeProfile_offered (changeResolutionDirect_offered hs hoffered) hoffered
  | none =>
    dsimp only
    split
    · exact retimeProfile_offered (changeFpsDirect_offered hs (by decide)) (by decide)
    · exact hs

theorem fpsGuardCheck_offered (hs : s.Offered) (fps : ℚ) : (s.fpsGuardCheck fps).Offered := by
  simp only [fpsGuardCheck]
  split
  · exact hs
  split
  · exact hs
  split
  · exact forceMinimumUsable_offered hs
  split
  · exact hs
  · exact hs

theorem changeResolution_offered (hs : s.Offered) {val : Option (ℕ × ℕ)} (hval : ∀ size ∈ val, size ∈ offeredSizes) :
    (s.changeResolution val).Offered := by
  cases val with
  | none => exact hs
  | some size =>
    have hsize : (size.1,size.2) ∈ offeredSizes := hval size rfl
    have hchosen : ({ s with manualOverride := true } : State).Offered := hs
    simp only [changeResolution]
    split
    · exact hs
    · exact resizeProfile_offered (changeResolutionDirect_offered hchosen hsize) hsize

theorem changeFps_offered (hs : s.Offered) {val : Option ℕ} (hval : ∀ fps ∈ val, fps ∈ offeredFps) :
    (s.changeFps val).Offered := by
  cases val with
  | none => exact hs
  | some fps =>
    have hfps : fps ∈ offeredFps := hval fps rfl
    have hchosen : ({ s with manualOverride := true } : State).Offered := hs
    simp only [changeFps]
    split
    · exact hs
    · exact retimeProfile_offered (changeFpsDirect_offered hchosen hfps) hfps

end State

theorem step_offered {s s' : State} {a : Action} (h : step s a = some s') (hs : s.Offered) : s'.Offered := by
  cases a with
  | openChannel | closeChannel =>
    cases h
    exact hs
  | autoTimer =>
    simp only [step] at h
    split at h
    · cases h
    · cases h
      exact State.applyAutoQuality_offered hs
  | detect relay =>
    cases h
    simp only [State.detectConnectionType,State.autoQuality]
    split
    · exact State.applyAutoQuality_offered hs
    · exact hs
  | changeResolution val =>
    simp only [step] at h
    split at h
    next hval =>
      cases h
      exact State.changeResolution_offered hs hval
    · cases h
  | changeFps val =>
    simp only [step] at h
    split at h
    next hval =>
      cases h
      exact State.changeFps_offered hs hval
    · cases h
  | toggleAdaptive =>
    cases h
    simp only [State.toggleAdaptive]
    split
    · exact State.applyAutoQuality_offered hs
    · exact hs
  | adaptive fps =>
    cases h
    exact State.adaptiveCheck_offered hs fps
  | guard fps =>
    cases h
    exact State.fpsGuardCheck_offered hs fps
  | reset =>
    cases h
    exact ⟨fun p hp => (nomatch hp),hs.2⟩

theorem run_offered {as : List Action} {s : State} (h : Run step {} as s) : s.Offered := by
  refine h.invariant (P := fun _ s => s.Offered) ?_ fun _ _ _ _ _ hs hstep => step_offered hstep hs
  exact ⟨fun p hp => (nomatch hp),fun command hmem => absurd hmem List.not_mem_nil⟩

theorem asked_offered {sent : List Command} (h : ∀ command ∈ sent, command.Offered) :
    askedWidth sent = ⊤ ∧ askedHeight sent = ⊤ ∨
      ∃ size ∈ offeredSizes, askedWidth sent = WithTop.some size.1 ∧ askedHeight sent = WithTop.some size.2 := by
  induction sent with
  | nil => exact .inl ⟨rfl,rfl⟩
  | cons command sent ih =>
    cases command with
    | resolution w h₁ => exact .inr ⟨(w,h₁),h _ List.mem_cons_self,rfl,rfl⟩
    | fps fps => exact ih fun command hmem => h command (List.mem_cons_of_mem _ hmem)

theorem lower_isSome {w : ℕ} (hw : 720 ≤ w) : ∃ size, lower w = some size := by
  unfold lower
  rw [if_neg (by omega),if_neg (by omega)]
  split
  · exact ⟨_,rfl⟩
  split
  · exact ⟨_,rfl⟩
  · exact ⟨_,rfl⟩

theorem lower_none {w : ℕ} (hw : 640 ≤ w) (hlow : w < 720) : lower w = none := by
  unfold lower
  rw [if_neg (by omega),if_pos hlow]

/-- Against what was asked for, the next size down fits and is smaller as the two widths say. -/
theorem lower_fits {w : ℕ} (hw : 720 ≤ w) {size : ℕ × ℕ} (hsize : lower w = some size) {sent : List Command}
    (h : ∀ command ∈ sent, command.Offered) :
    (WithTop.some size.1 ≤ askedWidth sent ∧ WithTop.some size.2 ≤ askedHeight sent ↔
      WithTop.some (floorWidth w) ≤ askedWidth sent) ∧
    (WithTop.some size.1 < askedWidth sent ↔ WithTop.some (leastWidth w) ≤ askedWidth sent) := by
  rcases asked_offered h with ⟨hw₁,hh₁⟩ | ⟨asked,hmem,hw₁,hh₁⟩
  · simp [hw₁,hh₁]
  rw [hw₁,hh₁]
  simp only [WithTop.coe_le_coe,WithTop.coe_lt_coe]
  simp only [offeredSizes,List.mem_cons,List.not_mem_nil,or_false] at hmem
  unfold lower at hsize
  unfold floorWidth leastWidth
  rw [if_neg (by omega),if_neg (by omega)] at hsize
  by_cases hw₂ : 1920 ≤ w
  · rw [if_neg (by omega),if_neg (by omega)] at hsize
    cases Option.some.inj hsize
    rcases hmem with rfl | rfl | rfl | rfl | rfl <;> simp [hw₂]
  by_cases hw₃ : 1280 ≤ w
  · rw [if_neg (by omega),if_pos (by omega)] at hsize
    cases Option.some.inj hsize
    rcases hmem with rfl | rfl | rfl | rfl | rfl <;> simp [hw₂,hw₃]
  · rw [if_pos (by omega)] at hsize
    cases Option.some.inj hsize
    rcases hmem with rfl | rfl | rfl | rfl | rfl <;> simp [hw₂,hw₃]

theorem offered_width {size : ℕ × ℕ} (h : size ∈ offeredSizes) : 640 ≤ size.1 ∧ size.1 ≠ 0 ∧ size.2 ≠ 0 := by
  have hall : ∀ size ∈ offeredSizes, 640 ≤ size.1 ∧ size.1 ≠ 0 ∧ size.2 ≠ 0 := by decide
  exact hall size h

theorem offered_fps {fps : ℕ} (h : fps ∈ offeredFps) : fps ≠ 0 := by
  have hall : ∀ fps ∈ offeredFps, fps ≠ 0 := by decide
  exact hall fps h

namespace State
variable {s : State}

theorem changeResolutionDirect_sent {size : ℕ × ℕ} (hsize : size ∈ offeredSizes) :
    (s.changeResolutionDirect size.1 size.2).sent =
      if s.channelOpen = true then .resolution size.1 size.2 :: s.sent else s.sent := by
  obtain ⟨-,hw,hh⟩ := offered_width hsize
  unfold changeResolutionDirect
  cases hopen : s.channelOpen with
  | true => rw [if_neg (by simp [hw,hh]),if_pos rfl]
  | false => simp

theorem changeResolutionDirect_open (w h : ℕ) : (s.changeResolutionDirect w h).channelOpen = s.channelOpen := by
  unfold changeResolutionDirect
  split <;> rfl

theorem changeFpsDirect_sent {fps : ℕ} (hfps : fps ∈ offeredFps) :
    (s.changeFpsDirect fps).sent = if s.channelOpen = true then .fps fps :: s.sent else s.sent := by
  unfold changeFpsDirect
  cases hopen : s.channelOpen with
  | true => rw [if_neg (by simp [offered_fps hfps]),if_pos rfl]
  | false => simp

theorem applyProfile_sent {p : Profile} (hp : p.Offered) :
    (s.applyProfile p).sent =
      if s.channelOpen = true then .fps p.fps :: .resolution p.width p.height :: s.sent else s.sent := by
  have hresolution := changeResolutionDirect_sent (s := { s with currentProfile := some p }) hp.1
  dsimp only at hresolution
  unfold applyProfile
  rw [changeFpsDirect_sent hp.2,changeResolutionDirect_open,hresolution]
  dsimp only
  split <;> rfl

theorem adaptiveCheck_down {p : Profile} {fps : ℚ} (h : s.adaptiveFires p fps) {size : ℕ × ℕ}
    (hsize : lower p.width = some size) :
    s.adaptiveCheck fps =
      ({ s with fpsCheckCount := 0 } : State).applyProfile { p with width := size.1, height := size.2 } := by
  obtain ⟨hp,henabled,hmanual,hcount,hpos,hlow⟩ := h
  have htarget : 0 < p.fps := by
    by_contra hzero
    rw [Nat.eq_zero_of_not_pos hzero,Nat.cast_zero,zero_mul] at hlow
    exact lt_asymm hpos hlow
  simp only [adaptiveCheck,adaptiveFpsCheck,lower_eq,hp]
  rw [if_neg (by simp [henabled,hmanual]),if_neg (by omega),if_pos ⟨hpos,htarget,hlow⟩]
  simp only [hsize]

theorem adaptiveCheck_rest {fps : ℚ} (h : ∀ p, s.adaptiveFires p fps → lower p.width = none) :
    (s.adaptiveCheck fps).sent = s.sent := by
  cases hp : s.currentProfile with
  | none => simp only [adaptiveCheck,hp]
  | some p =>
    simp only [adaptiveCheck,adaptiveFpsCheck,lower_eq,hp]
    split
    · rfl
    next hauto =>
      split
      · rfl
      next hcount =>
        split
        next hlow =>
          simp only [not_or,Bool.not_eq_false,Bool.not_eq_true] at hauto
          simp only [h p ⟨hp,hauto.1,hauto.2,by omega,hlow.1,hlow.2.2⟩]
        · rfl

theorem adaptiveCheck_sent (hs : s.Offered) (fps : ℚ) :
    (∃ p size, s.adaptiveFires p fps ∧ s.channelOpen = true ∧ 720 ≤ p.width ∧ lower p.width = some size ∧
      (s.adaptiveCheck fps).sent = .fps p.fps :: .resolution size.1 size.2 :: s.sent) ∨
    (∀ p, s.adaptiveFires p fps → s.channelOpen = true → p.width < 720) ∧ (s.adaptiveCheck fps).sent = s.sent := by
  by_cases hdown : ∃ p, s.adaptiveFires p fps ∧ 720 ≤ p.width
  · obtain ⟨p,hfires,hw⟩ := hdown
    obtain ⟨size,hsize⟩ := lower_isSome hw
    have hoffered : ({ p with width := size.1, height := size.2 } : Profile).Offered :=
      ⟨lower_offered hsize,(hs.1 p hfires.1).2⟩
    have hsent := applyProfile_sent (s := { s with fpsCheckCount := 0 }) hoffered
    rw [← adaptiveCheck_down hfires hsize] at hsent
    dsimp only at hsent
    cases hopen : s.channelOpen with
    | true =>
      rw [hopen,if_pos rfl] at hsent
      exact .inl ⟨p,size,hfires,rfl,hw,hsize,hsent⟩
    | false =>
      rw [hopen,if_neg (by decide)] at hsent
      exact .inr ⟨fun _ _ h => (nomatch h),hsent⟩
  · have hnarrow : ∀ p, s.adaptiveFires p fps → p.width < 720 := by
      intro p hfires
      by_contra hw
      exact hdown ⟨p,hfires,by omega⟩
    refine .inr ⟨fun p hfires _ => hnarrow p hfires,adaptiveCheck_rest fun p hfires => ?_⟩
    exact lower_none (offered_width (hs.1 p hfires.1).1).1 (hnarrow p hfires)

theorem fpsGuardCheck_fires_eq {fps : ℚ} (h : s.guardFires fps) :
    s.fpsGuardCheck fps = forceMinimumUsable { s with fpsRing := s.pushFps fps, fpsGuardActive := true } := by
  obtain ⟨hpos,hlen,havg,hidle⟩ := h
  simp only [fpsGuardCheck]
  rw [if_neg (not_le.mpr hpos),if_neg (by omega),if_pos ⟨havg,hidle⟩]

theorem fpsGuardCheck_rest {fps : ℚ} (h : ¬ s.guardFires fps) : (s.fpsGuardCheck fps).sent = s.sent := by
  simp only [fpsGuardCheck]
  split
  · rfl
  next hpos =>
    split
    · rfl
    next hlen =>
      split
      next hlow => exact absurd ⟨not_le.mp hpos,not_lt.mp hlen,hlow.1,hlow.2⟩ h
      · split
        · rfl
        · rfl

theorem forceMinimumUsable_size {size : ℕ × ℕ} (hsize : lower s.curW = some size) :
    s.forceMinimumUsable.sent = if s.channelOpen = true then .resolution size.1 size.2 :: s.sent else s.sent := by
  rw [← changeResolutionDirect_sent (lower_offered hsize)]
  simp only [forceMinimumUsable,lower_eq,hsize,resizeProfile]

theorem forceMinimumUsable_fps (hsize : lower s.curW = none) :
    s.forceMinimumUsable.sent =
      if s.curFps > 10 ∧ s.channelOpen = true then .fps 10 :: s.sent else s.sent := by
  simp only [forceMinimumUsable,lower_eq,hsize]
  by_cases hfps : s.curFps > 10
  · simp only [retimeProfile,hfps,true_and]
    exact changeFpsDirect_sent (by decide)
  · rw [if_neg hfps,if_neg (fun h => hfps h.1)]

theorem curW_offered (hs : s.Offered) : 640 ≤ s.curW := by
  unfold curW
  cases hp : s.currentProfile with
  | none => decide
  | some p => exact (offered_width (hs.1 p hp).1).1

theorem fpsGuardCheck_sent (hs : s.Offered) (fps : ℚ) :
    (∃ size, s.guardFires fps ∧ s.channelOpen = true ∧ 720 ≤ s.curW ∧ lower s.curW = some size ∧
      (s.fpsGuardCheck fps).sent = .resolution size.1 size.2 :: s.sent) ∨
    (s.guardFires fps ∧ s.channelOpen = true ∧ s.curW < 720 ∧ 10 < s.curFps ∧
      (s.fpsGuardCheck fps).sent = .fps 10 :: s.sent) ∨
    (s.guardFires fps → s.channelOpen = true → s.curW < 720 ∧ s.curFps ≤ 10) ∧
      (s.fpsGuardCheck fps).sent = s.sent := by
  by_cases hfires : s.guardFires fps
  · by_cases hw : 720 ≤ s.curW
    · obtain ⟨size,hsize⟩ := lower_isSome hw
      have hsent : (s.fpsGuardCheck fps).sent =
          if s.channelOpen = true then .resolution size.1 size.2 :: s.sent else s.sent := by
        rw [fpsGuardCheck_fires_eq hfires]
        exact forceMinimumUsable_size (s := { s with fpsRing := s.pushFps fps, fpsGuardActive := true }) hsize
      cases hopen : s.channelOpen with
      | true => exact .inl ⟨size,hfires,rfl,hw,hsize,by rw [hsent,if_pos hopen]⟩
      | false => exact .inr (.inr ⟨fun _ h => (nomatch h),by rw [hsent,hopen,if_neg (by decide)]⟩)
    · have hnone := lower_none (curW_offered hs) (not_le.mp hw)
      have hsent : (s.fpsGuardCheck fps).sent =
          if s.curFps > 10 ∧ s.channelOpen = true then .fps 10 :: s.sent else s.sent := by
        rw [fpsGuardCheck_fires_eq hfires]
        exact forceMinimumUsable_fps (s := { s with fpsRing := s.pushFps fps, fpsGuardActive := true }) hnone
      by_cases hsends : s.curFps > 10 ∧ s.channelOpen = true
      · exact .inr (.inl ⟨hfires,hsends.2,not_le.mp hw,hsends.1,by rw [hsent,if_pos hsends]⟩)
      · refine .inr (.inr ⟨fun _ hopen => ⟨not_le.mp hw,?_⟩,by rw [hsent,if_neg hsends]⟩)
        by_contra hfps
        exact hsends ⟨not_le.mp hfps,hopen⟩
  · exact .inr (.inr ⟨fun h => absurd h hfires,fpsGuardCheck_rest hfires⟩)

end State

theorem floorWidth_le (w : ℕ) : floorWidth w ≤ leastWidth w := by
  unfold floorWidth leastWidth
  split
  · decide
  split <;> decide

section Sends
variable {sent : List Command} (h : ∀ command ∈ sent, command.Offered) {w : ℕ} (hw : 720 ≤ w) {size : ℕ × ℕ}
  (hsize : lower w = some size)
include h hw hsize

theorem fits_of_below (hleast : WithTop.some (leastWidth w) ≤ askedWidth sent) :
    WithTop.some size.1 ≤ askedWidth sent ∧ WithTop.some size.2 ≤ askedHeight sent :=
  (lower_fits hw hsize h).1.mpr ((WithTop.coe_le_coe.mpr (floorWidth_le w)).trans hleast)

theorem lowers_size_iff :
    Lowers sent (.resolution size.1 size.2 :: sent) ↔ WithTop.some (leastWidth w) ≤ askedWidth sent := by
  simp only [Lowers,askedWidth,askedHeight,askedFps,le_refl,true_and,lt_irrefl,or_false]
  constructor
  · rintro ⟨_,_,hbelow⟩
    exact (lower_fits hw hsize h).2.mp hbelow
  · intro hleast
    obtain ⟨hwidth,hheight⟩ := fits_of_below h hw hsize hleast
    exact ⟨hwidth,hheight,(lower_fits hw hsize h).2.mpr hleast⟩

theorem lowers_profile_iff (fps : ℕ) :
    Lowers sent (.fps fps :: .resolution size.1 size.2 :: sent) ↔
      WithTop.some fps ≤ askedFps sent ∧ (WithTop.some (leastWidth w) ≤ askedWidth sent ∨
        WithTop.some (floorWidth w) ≤ askedWidth sent ∧ WithTop.some fps < askedFps sent) := by
  obtain ⟨hfits,hbelow⟩ := lower_fits hw hsize h
  simp only [Lowers,askedWidth,askedHeight,askedFps]
  constructor
  · rintro ⟨hwidth,hheight,hrate,hless⟩
    refine ⟨hrate,hless.imp hbelow.mp fun hfps => ?_⟩
    exact ⟨hfits.mp ⟨hwidth,hheight⟩,hfps⟩
  · rintro ⟨hrate,hleast | ⟨hfloor,hfps⟩⟩
    · obtain ⟨hwidth,hheight⟩ := fits_of_below h hw hsize hleast
      exact ⟨hwidth,hheight,hrate,.inl (hbelow.mpr hleast)⟩
    · obtain ⟨hwidth,hheight⟩ := hfits.mpr hfloor
      exact ⟨hwidth,hheight,hrate,.inr hfps⟩

end Sends

theorem lowers_fps_iff (sent : List Command) (fps : ℕ) :
    Lowers sent (.fps fps :: sent) ↔ WithTop.some fps < askedFps sent := by
  simp only [Lowers,askedWidth,askedHeight,askedFps,le_refl,true_and,lt_irrefl,false_or]
  constructor
  · rintro ⟨_,hfps⟩
    exact hfps
  · intro hfps
    exact ⟨hfps.le,hfps⟩

theorem adaptive_goesDown_iff {s : State} (hs : s.Offered) (fps : ℚ) :
    Tracks s (.adaptive fps) ↔ GoesDown s (.adaptive fps) (s.adaptiveCheck fps) := by
  simp only [Tracks,GoesDown]
  rcases State.adaptiveCheck_sent hs fps with ⟨p,size,hfires,hopen,hw,hsize,hsent⟩ | ⟨hrest,hsent⟩
  · rw [hsent,lowers_profile_iff hs.2 hw hsize]
    constructor
    · intro h _
      exact h p hfires hopen hw
    · intro h q hq _ _
      cases Option.some.inj (hfires.1.symm.trans hq.1)
      refine h fun hsame => ?_
      have hlength := congrArg List.length hsame
      simp only [List.length_cons] at hlength
      omega
  · rw [hsent]
    constructor
    · intro _ h
      exact absurd rfl h
    · intro _ p hfires hopen hw
      exact absurd (hrest p hfires hopen) (not_lt.mpr hw)

theorem guard_goesDown_iff {s : State} (hs : s.Offered) (fps : ℚ) :
    Tracks s (.guard fps) ↔ GoesDown s (.guard fps) (s.fpsGuardCheck fps) := by
  simp only [Tracks,GoesDown]
  rcases State.fpsGuardCheck_sent hs fps with
    ⟨size,hfires,hopen,hw,hsize,hsent⟩ | ⟨hfires,hopen,hw,hfps,hsent⟩ | ⟨hrest,hsent⟩
  · rw [hsent,lowers_size_iff hs.2 hw hsize]
    constructor
    · intro h _
      exact (h hfires hopen).1 hw
    · intro h _ _
      exact ⟨fun _ => h (by simp),fun hnarrow => absurd hw (not_le.mpr hnarrow)⟩
  · rw [hsent,lowers_fps_iff]
    constructor
    · intro h _
      exact (h hfires hopen).2 hw hfps
    · intro h _ _
      exact ⟨fun hwide => absurd hw (not_lt.mpr hwide),fun _ _ => h (by simp)⟩
  · rw [hsent]
    constructor
    · intro _ h
      exact absurd rfl h
    · intro _ hfires hopen
      obtain ⟨hw,hfps⟩ := hrest hfires hopen
      exact ⟨fun h => absurd hw (not_lt.mpr h),fun _ h => absurd hfps (not_le.mpr h)⟩

theorem tracks_iff {s s' : State} {a : Action} (hs : s.Offered) (h : step s a = some s') :
    Tracks s a ↔ GoesDown s a s' := by
  cases a with
  | adaptive fps =>
    cases h
    exact adaptive_goesDown_iff hs fps
  | guard fps =>
    cases h
    exact guard_goesDown_iff hs fps
  | _ => exact Iff.rfl

theorem tracks_of_asked {s : State} {p : Profile} (hp : s.currentProfile = some p)
    (hwidth : askedWidth s.sent = WithTop.some p.width) (hfps : askedFps s.sent = WithTop.some p.fps) (a : Action) :
    Tracks s a := by
  have hleast : ∀ w, 720 ≤ w → leastWidth w ≤ w := by
    intro w hw
    unfold leastWidth
    split
    · assumption
    split <;> omega
  cases a with
  | adaptive fps =>
    intro q hq _ hw
    cases Option.some.inj (hp.symm.trans hq.1)
    rw [hwidth,hfps]
    exact ⟨le_refl _,.inl (WithTop.coe_le_coe.mpr (hleast p.width hw))⟩
  | guard fps =>
    intro _ _
    simp only [State.curW,State.curFps,hp]
    rw [hwidth,hfps]
    exact ⟨fun hw => WithTop.coe_le_coe.mpr (hleast p.width hw),fun _ h => WithTop.coe_lt_coe.mpr h⟩
  | _ => trivial

/-- Along every run the automatic steps go down exactly if each starts from what was asked for. -/
theorem steps_go_down_iff (actions : List Action) (s : State) (h : Run step {} actions s) :
    Always step {} (LastStep step {} GoesDown) actions ↔ GuardedRun step {} (fun _ => Tracks) actions s := by
  refine h.always_lastStep_iff ?_
  intro as before a after hguarded hstep
  exact tracks_iff (run_offered hguarded.run) hstep

/-- A connection on which the guard fires over the profile of direct connections. -/
def guardedCall : List Action :=
  [.detect false,.openChannel,.autoTimer] ++ List.replicate 10 (.guard 5)

theorem steps_go_down_iff_guardedCall :
    ∃ s, Run step {} guardedCall.reverse s ∧
      (Always step {} (LastStep step {} GoesDown) guardedCall.reverse ↔
        GuardedRun step {} (fun _ => Tracks) guardedCall.reverse s) := by
  obtain ⟨s,hrun,-⟩ := exists_run_of_replay step {} guardedCall
    (fun s => decide (s.sent.head? = some (.resolution 720 480))) (by decide +kernel)
  exact ⟨s,hrun,steps_go_down_iff guardedCall.reverse s hrun⟩

/-- Without a profile: 640x480 is chosen by hand, and the guard then asks for 720x480. -/
def unprofiledCall : List Action :=
  [.toggleAdaptive,.openChannel,.changeResolution (some (640,480))] ++ List.replicate 9 (.guard 5)

theorem guard_raises_resolution :
    ¬ ∀ actions s, Run step {} actions s → Always step {} (LastStep step {} GoesDown) actions := by
  intro h
  obtain ⟨s,hrun,hs⟩ := exists_run_of_replay step {} unprofiledCall
    (fun s => decide (s.sent = [.resolution 640 480] ∧
      (s.fpsGuardCheck 5).sent = [.resolution 720 480,.resolution 640 480])) (by decide +kernel)
  obtain ⟨hsent,hafter⟩ := of_decide_eq_true hs
  have hnext : Run step {} (.guard 5 :: unprofiledCall.reverse) (s.fpsGuardCheck 5) := .next hrun rfl
  have hdown := (h _ _ hnext).here hnext s hrun
  have hlowers : Lowers s.sent (s.fpsGuardCheck 5).sent := hdown (by rw [hsent,hafter]; decide)
  rw [hsent,hafter] at hlowers
  have hwidth : WithTop.some 720 ≤ WithTop.some 640 := hlowers.1
  exact absurd (WithTop.coe_le_coe.mp hwidth) (by decide)

end Quality
end AnyKvm
