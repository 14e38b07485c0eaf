import AnyKvm.Quality

/-! The guard on the frame rate over a stretch of unusable samples: the ring fills, the guard fires, and the flag
that it has set then keeps it from firing again. -/
namespace AnyKvm
namespace Quality

/-- A profile that the page can be in: each of its values is an option. -/
def Profile.Offered (p : Profile) : Prop := (p.width,p.height) ∈ offeredSizes ∧ p.fps ∈ offeredFps

instance (p : Profile) : Decidable p.Offered := inferInstanceAs (Decidable (_ ∧ _))

def Profile.Bottom (p : Profile) : Prop := (p.width,p.height) = (640,480) ∧ p.fps ≤ 10

theorem profiles_offered : ∀ p ∈ [p2pHigh,p2p,relay,relayLow,minimum], p.Offered := by decide

/-- Every sample is some frames, and too few. -/
def Unusable (samples : List ℚ) : Prop := ∀ fps ∈ samples, 0 < fps ∧ fps < 10

theorem Unusable.append {a b : List ℚ} (ha : Unusable a) (hb : Unusable b) : Unusable (a ++ b) := by
  intro fps hfps
  rcases List.mem_append.mp hfps with h | h
  · exact ha fps h
  · exact hb fps h

theorem unusable_singleton {fps : ℚ} (h : 0 < fps ∧ fps < 10) : Unusable [fps] := by
  intro x hx
  rwa [List.mem_singleton.mp hx]

theorem Unusable.tail {fps : ℚ} {samples : List ℚ} (h : Unusable (fps :: samples)) : Unusable samples :=
  fun x hx => h x (List.mem_cons_of_mem _ hx)

theorem foldl_le (ring : List ℚ) (hring : Unusable ring) (acc : ℚ) :
    ring.foldl (· + ·) acc ≤ acc + 10 * ring.length := by
  induction ring generalizing acc with
  | nil => simp
  | cons fps ring ih =>
    have hfps := (hring fps List.mem_cons_self).2
    have hrest := ih hring.tail (acc + fps)
    simp only [List.foldl_cons,List.length_cons,Nat.cast_add,Nat.cast_one]
    linarith

theorem average_lt {ring : List ℚ} (hring : Unusable ring) (hne : ring ≠ []) : State.average ring < 10 := by
  cases ring with
  | nil => exact absurd rfl hne
  | cons fps ring =>
    have hfps := (hring fps List.mem_cons_self).2
    have hrest := foldl_le ring hring.tail (0 + fps)
    have hpos : (0 : ℚ) < ((fps :: ring).length : ℕ) := by
      rw [List.length_cons]
      exact_mod_cast Nat.succ_pos _
    unfold State.average
    rw [div_lt_iff₀ hpos]
    simp only [List.foldl_cons,List.length_cons,Nat.cast_add,Nat.cast_one] at hrest ⊢
    linarith

def Profile.lowered (p : Profile) : Profile :=
  match lower p.width with
  | some size => { p with width := size.1, height := size.2 }
  | none => if p.fps > 10 then { p with fps := 10 } else p

namespace State
variable {s : State}

@[simp] theorem changeResolutionDirect_profile (w h : ℕ) :
    (s.changeResolutionDirect w h).currentProfile = s.currentProfile := by
  unfold changeResolutionDirect
  split <;> rfl

@[simp] theorem changeResolutionDirect_active (w h : ℕ) :
    (s.changeResolutionDirect w h).fpsGuardActive = s.fpsGuardActive := by
  unfold changeResolutionDirect
  split <;> rfl

@[simp] theorem changeFpsDirect_profile (fps : ℕ) : (s.changeFpsDirect fps).currentProfile = s.currentProfile := by
  unfold changeFpsDirect
  split <;> rfl

@[simp] theorem changeFpsDirect_active (fps : ℕ) : (s.changeFpsDirect fps).fpsGuardActive = s.fpsGuardActive := by
  unfold changeFpsDirect
  split <;> rfl

theorem forceMinimumUsable_profile {p : Profile} (hp : s.currentProfile = some p) :
    s.forceMinimumUsable.currentProfile = some p.lowered := by
  simp only [forceMinimumUsable,lower_eq,curW,curFps,hp,Profile.lowered]
  cases lower p.width with
  | some size => simp [resizeProfile,hp]
  | none =>
    by_cases hfps : p.fps > 10
    · simp [hfps,retimeProfile,hp]
    · simp [hfps,hp]

theorem forceMinimumUsable_active : s.forceMinimumUsable.fpsGuardActive = s.fpsGuardActive := by
  simp only [forceMinimumUsable]
  cases resLadder[nextIdx s.curW]? with
  | some size => simp [resizeProfile]
  | none =>
    by_cases hfps : s.curFps > 10
    · simp [hfps,retimeProfile]
    · simp [hfps]

theorem forceMinimumUsable_ring : s.forceMinimumUsable.fpsRing = [] := rfl

theorem fpsGuardCheck_warm {fps : ℚ} (hfps : 0 < fps) (hlen : s.fpsRing.length + 1 < 10) :
    s.fpsGuardCheck fps = { s with fpsRing := s.fpsRing ++ [fps] } := by
  have hring : s.pushFps fps = s.fpsRing ++ [fps] := by
    simp only [pushFps,List.length_append,List.length_singleton]
    rw [if_neg (by omega)]
  simp only [fpsGuardCheck,hring,List.length_append,List.length_singleton]
  rw [if_neg (not_le.mpr hfps),if_pos hlen]

theorem foldl_warm {samples : List ℚ} (hlow : Unusable samples) (hlen : s.fpsRing.length + samples.length < 10) :
    samples.foldl fpsGuardCheck s = { s with fpsRing := s.fpsRing ++ samples } := by
  induction samples generalizing s with
  | nil => simp
  | cons fps samples ih =>
    rw [List.length_cons] at hlen
    rw [List.foldl_cons,fpsGuardCheck_warm (hlow fps List.mem_cons_self).1 (by omega)]
    rw [ih hlow.tail]
    · simp
    · simp only [List.length_append,List.length_singleton]
      omega

theorem fpsGuardCheck_fires {fps : ℚ} (hfps : 0 < fps ∧ fps < 10) (hring : Unusable s.fpsRing)
    (hlen : s.fpsRing.length = 9) (hidle : s.fpsGuardActive = false) :
    s.fpsGuardCheck fps =
      forceMinimumUsable { s with fpsRing := s.fpsRing ++ [fps], fpsGuardActive := true } := by
  have hpush : s.pushFps fps = s.fpsRing ++ [fps] := by
    simp only [pushFps,List.length_append,List.length_singleton,hlen]
    rw [if_neg (by omega)]
  have havg := average_lt (hring.append (unusable_singleton hfps)) (by simp)
  simp only [fpsGuardCheck,hpush,List.length_append,List.length_singleton,hlen]
  rw [if_neg (not_le.mpr hfps.1),if_neg (by omega),if_pos ⟨havg,hidle⟩]

theorem pushFps_unusable {fps : ℚ} (hfps : 0 < fps ∧ fps < 10) (hring : Unusable s.fpsRing) :
    Unusable (s.pushFps fps) := by
  have hall := hring.append (unusable_singleton hfps)
  simp only [pushFps]
  split
  · exact fun x hx => hall x (List.mem_of_mem_tail hx)
  · exact hall

/-- The flag is only taken back at an average of 12, which unusable samples do not reach. -/
theorem fpsGuardCheck_quiet {fps : ℚ} (hfps : 0 < fps ∧ fps < 10) (hring : Unusable s.fpsRing)
    (hactive : s.fpsGuardActive = true) :
    s.fpsGuardCheck fps = { s with fpsRing := s.pushFps fps } := by
  simp only [fpsGuardCheck]
  rw [if_neg (not_le.mpr hfps.1)]
  split
  · rfl
  next hlen =>
    have hne : s.pushFps fps ≠ [] := by
      intro h
      rw [h] at hlen
      exact hlen (by decide)
    have havg := average_lt (pushFps_unusable hfps hring) hne
    rw [if_neg (by simp [hactive]),if_neg (by linarith)]

theorem foldl_quiet {samples : List ℚ} (hlow : Unusable samples) (hring : Unusable s.fpsRing)
    (hactive : s.fpsGuardActive = true) :
    (samples.foldl fpsGuardCheck s).currentProfile = s.currentProfile := by
  induction samples generalizing s with
  | nil => rfl
  | cons fps samples ih =>
    have hfps := hlow fps List.mem_cons_self
    rw [List.foldl_cons,fpsGuardCheck_quiet hfps hring hactive]
    exact ih hlow.tail (pushFps_unusable hfps hring) hactive

/-- From an idle guard, ten or more unusable samples lower the profile, and they lower it once. -/
theorem foldl_lowers_once {p : Profile} (hp : s.currentProfile = some p) (hidle : s.fpsGuardActive = false)
    (hring : s.fpsRing = []) {samples : List ℚ} (hlow : Unusable samples) (hlen : 10 ≤ samples.length) :
    (samples.foldl fpsGuardCheck s).currentProfile = some p.lowered := by
  have hwarm : Unusable (samples.take 9) := fun x hx => hlow x (List.mem_of_mem_take hx)
  have hnine : (samples.take 9).length = 9 := by
    rw [List.length_take]
    omega
  have hlt : 9 < samples.length := by omega
  have hsplit : samples = samples.take 9 ++ samples[9] :: samples.drop 10 := by
    rw [← List.drop_eq_getElem_cons hlt,List.take_append_drop]
  have htenth := hlow samples[9] (List.getElem_mem hlt)
  have hrest : Unusable (samples.drop 10) := fun x hx => hlow x (List.mem_of_mem_drop hx)
  rw [hsplit,List.foldl_append,foldl_warm hwarm (by rw [hring,hnine]; decide),List.foldl_cons,
    fpsGuardCheck_fires (s := { s with fpsRing := s.fpsRing ++ samples.take 9 }) htenth (by rwa [hring])
      (by rw [hring]; exact hnine) hidle,foldl_quiet hrest]
  · exact forceMinimumUsable_profile hp
  · rw [forceMinimumUsable_ring]
    exact fun x hx => absurd hx List.not_mem_nil
  · exact forceMinimumUsable_active

end State

theorem lowered_bottom_iff {p : Profile} (hp : p.Offered) :
    p.lowered.Bottom ↔ p.width = 640 ∨ p.width ≤ 1024 ∧ p.fps ≤ 10 := by
  obtain ⟨width,height,fps⟩ := p
  obtain ⟨hsize,hfps⟩ := hp
  simp only [offeredSizes,List.mem_cons,List.not_mem_nil,or_false,Prod.mk.injEq] at hsize
  rcases hsize with ⟨rfl,rfl⟩ | ⟨rfl,rfl⟩ | ⟨rfl,rfl⟩ | ⟨rfl,rfl⟩ | ⟨rfl,rfl⟩
  · by_cases h : fps > 10
    · simp [Profile.lowered,Profile.Bottom,lower,h]
    · simp [Profile.lowered,Profile.Bottom,lower,h]
      omega
  all_goals simp [Profile.lowered,Profile.Bottom,lower]

/-- Unusable samples leave an offered profile at the bottom of the ladder exactly if one step leads there. -/
theorem guard_reaches_floor_iff (s : State) (p : Profile) (hp : s.currentProfile = some p) (hoffered : p.Offered)
    (hidle : s.fpsGuardActive = false) (hring : s.fpsRing = []) (samples : List ℚ) (hlen : 60 ≤ samples.length)
    (hlow : ∀ fps ∈ samples, 0 < fps ∧ fps < 10) :
    (∃ q, (samples.foldl State.fpsGuardCheck s).currentProfile = some q ∧ q.Bottom) ↔
      p.width = 640 ∨ p.width ≤ 1024 ∧ p.fps ≤ 10 := by
  rw [State.foldl_lowers_once hp hidle hring hlow (by omega),← lowered_bottom_iff hoffered]
  simp

/-- The page at a profile, with the guard idle. -/
def stateAt (p : Profile) : State := { currentProfile := some p, channelOpen := true }

/-- From 720x480 at 10 frames, a choice by hand, sixty samples of 5 lead to 640x480. -/
theorem guard_reaches_floor_iff_lowered :
    ∃ q, ((List.replicate 60 5).foldl State.fpsGuardCheck (stateAt ⟨720,480,10⟩)).currentProfile = some q ∧
      q.Bottom :=
  (guard_reaches_floor_iff (stateAt ⟨720,480,10⟩) ⟨720,480,10⟩ rfl (by decide) rfl rfl (List.replicate 60 5)
    (by rw [List.length_replicate]) fun fps h => by
      rw [List.eq_of_mem_replicate h]
      norm_num).mpr (by decide)

/-- From 1280x720 at 30 frames sixty samples of 5 leave 720x480 at 30 frames. -/
theorem guard_stops_early :
    ¬ ∀ s p, s.currentProfile = some p → p.Offered → s.fpsGuardActive = false → s.fpsRing = [] →
      ∀ samples : List ℚ, 60 ≤ samples.length → (∀ fps ∈ samples, 0 < fps ∧ fps < 10) →
      ∃ q, (samples.foldl State.fpsGuardCheck s).currentProfile = some q ∧ q.Bottom := by
  intro h
  have hlow : Unusable (List.replicate 60 5) := by
    intro fps hfps
    rw [List.eq_of_mem_replicate hfps]
    norm_num
  have hfloor := h (stateAt p2p) p2p rfl (by decide) rfl rfl (List.replicate 60 5) (by rw [List.length_replicate]) hlow
  rw [State.foldl_lowers_once rfl rfl rfl hlow (by rw [List.length_replicate]; decide)] at hfloor
  obtain ⟨q,hq,hbottom⟩ := hfloor
  cases Option.some.inj hq
  exact absurd hbottom.1 (by decide)

end Quality
end AnyKvm
