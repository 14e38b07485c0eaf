import Mathlib.Data.NNRat.Floor
import AnyKvm.Transition

/-! `webrtc.rs`: the media times of the frames that a session passes to str0m.
Elapsed seconds are exact rationals. -/
namespace AnyKvm
namespace MediaClock

open Transition

/-- `as u32`: towards zero, and 2^32 - 1 from there on. -/
def asU32 (v : ℚ) : UInt32 := UInt32.ofNat (min (2 ^ 32 - 1) v.floor.toNat)

/-- A count of ticks, of so many a second. -/
structure MediaTime where
  numer : ℤ
  denom : ℕ
  deriving DecidableEq, Repr

def MediaTime.from90khz (v : ℤ) : MediaTime := ⟨v,90000⟩

inductive Codec
  | h264 | opus | other
  deriving DecidableEq, Repr

/-- What has been negotiated for a line of media. -/
structure PayloadParams where
  pt : ℕ
  codec : Codec
  packetizationMode : Option ℕ
  deriving DecidableEq, Repr

structure Counts where
  written : ℕ := 0
  dropped : ℕ := 0
  deriving DecidableEq, Repr

/-- The arguments of `Writer::write` without the data. -/
structure Write where
  pt : ℕ
  time : MediaTime
  deriving DecidableEq, Repr

/-- H.264 with packetization mode 1, or any H.264. -/
def h264Pt (params : List PayloadParams) : Option ℕ :=
  (((params.filter (·.codec = .h264)).find? (·.packetizationMode = some 1)).or
    (params.find? (·.codec = .h264))).map PayloadParams.pt

/-- `writer` are the payload parameters of the line, if there is a writer for it. -/
def sendVideo (writer : Option (List PayloadParams)) (ts : UInt32) (counts : Counts) :
    Counts × Option Write :=
  match writer with
  | none => ({ counts with dropped := counts.dropped + 1 },none)
  | some params =>
    match h264Pt params with
    | none => (counts,none)
    | some pt => ({ counts with written := counts.written + 1 },some ⟨pt,.from90khz ts.toNat⟩)

def sendAudio (writer : Option (List PayloadParams)) (ts : UInt32) : Option Write :=
  writer.bind fun params => params.head?.map fun p => ⟨p.pt,⟨ts.toNat,48000⟩⟩

/-- The media part of a session: the time since `video_start` and since `audio_start`, and the writes with the
times of their frames, newest first. -/
structure Session where
  iceConnected : Bool := false
  videoElapsed : ℚ≥0
  audioElapsed : ℚ≥0 := 0
  counts : Counts := {}
  videoWrites : List (ℚ≥0 × Write) := []
  audioWrites : List (ℚ≥0 × Write) := []
  deriving DecidableEq

/-- `video` and `audio` are frames received by `try_recv`, with what there is of a writer. -/
inductive Action
  | pass (time : ℚ≥0)
  | connected
  | video (writer : Option (List PayloadParams))
  | audio (writer : Option (List PayloadParams))
  deriving DecidableEq

/-- The audio clock starts a little after that of the video. -/
def start (gap : ℚ≥0) : Session := { videoElapsed := gap }

def step (s : Session) : Action → Option Session
  | .pass time => some { s with
      videoElapsed := s.videoElapsed + time
      audioElapsed := s.audioElapsed + time }
  | .connected => some { s with iceConnected := true }
  | .video writer =>
    if s.iceConnected then
      let r := sendVideo writer (asU32 (s.videoElapsed * 90000)) s.counts
      some { s with
        counts := r.1
        videoWrites := (r.2.map fun write => (s.videoElapsed,write)).toList ++ s.videoWrites }
    else none
  | .audio writer =>
    if s.iceConnected then
      let r := sendAudio writer (asU32 (s.audioElapsed * 48000))
      some { s with audioWrites := (r.map fun write => (s.audioElapsed,write)).toList ++ s.audioWrites }
    else none

/-- The media time of the second frame is later, by as many ticks as have gone by. -/
def Advances (rate : ℕ) (w₁ w₂ : ℚ≥0 × Write) : Prop :=
  w₁.2.time.numer < w₂.2.time.numer ∧
    w₂.2.time.numer - w₁.2.time.numer = ⌊(w₂.1 * rate : ℚ)⌋ - ⌊(w₁.1 * rate : ℚ)⌋

/-- Any two frames whose times are a tick apart advance. -/
def NeverStalls (rate : ℕ) (writes : List (ℚ≥0 × Write)) : Prop :=
  ∀ w₁ ∈ writes, ∀ w₂ ∈ writes, (w₁.1 : ℚ) + 1 / rate ≤ w₂.1 → Advances rate w₁ w₂

section Clock
variable {rate : ℕ} {t t₁ t₂ : ℚ≥0} {w w₁ w₂ : ℚ≥0 × Write}

theorem toNat_asU32 (v : ℚ) : (asU32 v).toNat = min (2 ^ 32 - 1) ⌊v⌋.toNat := by
  rw [asU32,UInt32.toNat_ofNat']
  exact Nat.mod_eq_of_lt (Nat.lt_of_le_of_lt (Nat.min_le_left _ _) (by decide))

theorem floor_nonneg (t : ℚ≥0) (rate : ℕ) : 0 ≤ ⌊(t * rate : ℚ)⌋ :=
  Int.floor_nonneg.mpr (mul_nonneg t.coe_nonneg (Nat.cast_nonneg rate))

/-- A write with the ticks of its time. -/
def Stamped (rate : ℕ) (w : ℚ≥0 × Write) : Prop := w.2.time.numer = min (2 ^ 32 - 1) ⌊(w.1 * rate : ℚ)⌋

theorem numer_asU32 (t : ℚ≥0) (rate : ℕ) :
    ((asU32 (t * rate)).toNat : ℤ) = min (2 ^ 32 - 1) ⌊(t * rate : ℚ)⌋ := by
  have := floor_nonneg t rate
  rw [toNat_asU32]
  omega

theorem floor_lt_floor (hrate : 0 < rate) (h : (t₁ : ℚ) + 1 / rate ≤ t₂) :
    ⌊(t₁ * rate : ℚ)⌋ < ⌊(t₂ * rate : ℚ)⌋ := by
  have hrate' : (0 : ℚ) < rate := Nat.cast_pos.mpr hrate
  have hmul := mul_le_mul_of_nonneg_right h hrate'.le
  rw [add_mul,one_div_mul_cancel hrate'.ne'] at hmul
  have hfloor := Int.floor_le_floor hmul
  rw [Int.floor_add_one] at hfloor
  omega

/-- Up to the end of the 32 bits, and no longer. -/
theorem advances_iff (hrate : 0 < rate) (h₁ : Stamped rate w₁) (h₂ : Stamped rate w₂)
    (h : (w₁.1 : ℚ) + 1 / rate ≤ w₂.1) : Advances rate w₁ w₂ ↔ ⌊(w₂.1 * rate : ℚ)⌋ < 2 ^ 32 := by
  have hlt := floor_lt_floor hrate h
  rw [Advances,h₁,h₂]
  omega

end Clock

variable {gap : ℚ≥0} {s s' : Session} {a : Action} {as : List Action}

theorem stamped_video {writer : Option (List PayloadParams)} {counts : Counts} {t : ℚ≥0} {write : Write}
    (h : (sendVideo writer (asU32 (t * 90000)) counts).2 = some write) : Stamped 90000 (t,write) := by
  unfold sendVideo at h
  split at h
  · cases h
  · split at h
    · cases h
    · cases h
      exact numer_asU32 t 90000

theorem stamped_audio {writer : Option (List PayloadParams)} {t : ℚ≥0} {write : Write}
    (h : sendAudio writer (asU32 (t * 48000)) = some write) : Stamped 48000 (t,write) := by
  obtain ⟨params,_,h⟩ := Option.bind_eq_some_iff.mp h
  obtain ⟨p,_,rfl⟩ := Option.map_eq_some_iff.mp h
  exact numer_asU32 t 48000

theorem stamped (h : Run step (start gap) as s) :
    (∀ w ∈ s.videoWrites, Stamped 90000 w) ∧ ∀ w ∈ s.audioWrites, Stamped 48000 w := by
  refine h.invariant (P := fun _ s => (∀ w ∈ s.videoWrites, Stamped 90000 w) ∧
    ∀ w ∈ s.audioWrites, Stamped 48000 w) ⟨List.forall_mem_nil _,List.forall_mem_nil _⟩ ?_
  intro as s a s' _ ih hs
  obtain ⟨ihvideo,ihaudio⟩ := ih
  cases a with
  | pass time =>
    cases Option.some.inj hs
    exact ⟨ihvideo,ihaudio⟩
  | connected =>
    cases Option.some.inj hs
    exact ⟨ihvideo,ihaudio⟩
  | video writer =>
    simp only [step] at hs
    split at hs
    · cases Option.some.inj hs
      refine ⟨fun w hw => ?_,ihaudio⟩
      rcases List.mem_append.mp hw with hw | hw
      · obtain ⟨write,hwrite,rfl⟩ := Option.map_eq_some_iff.mp (Option.mem_toList.mp hw)
        exact stamped_video hwrite
      · exact ihvideo w hw
    · cases hs
  | audio writer =>
    simp only [step] at hs
    split at hs
    · cases Option.some.inj hs
      refine ⟨ihvideo,fun w hw => ?_⟩
      rcases List.mem_append.mp hw with hw | hw
      · obtain ⟨write,hwrite,rfl⟩ := Option.map_eq_some_iff.mp (Option.mem_toList.mp hw)
        exact stamped_audio hwrite
      · exact ihaudio w hw
    · cases hs

/-- Two frames of a session advance exactly if the second is sent before the clock has run through its
32 bits. -/
theorem media_advances_iff (h : Run step (start gap) as s) :
    (∀ w₁ ∈ s.videoWrites, ∀ w₂ ∈ s.videoWrites, (w₁.1 : ℚ) + 1 / (90000 : ℕ) ≤ w₂.1 →
      (Advances 90000 w₁ w₂ ↔ ⌊(w₂.1 * (90000 : ℕ) : ℚ)⌋ < 2 ^ 32)) ∧
    ∀ w₁ ∈ s.audioWrites, ∀ w₂ ∈ s.audioWrites, (w₁.1 : ℚ) + 1 / (48000 : ℕ) ≤ w₂.1 →
      (Advances 48000 w₁ w₂ ↔ ⌊(w₂.1 * (48000 : ℕ) : ℚ)⌋ < 2 ^ 32) := by
  obtain ⟨hvideo,haudio⟩ := stamped h
  exact ⟨fun w₁ h₁ w₂ h₂ => advances_iff (by decide) (hvideo w₁ h₁) (hvideo w₂ h₂),
    fun w₁ h₁ w₂ h₂ => advances_iff (by decide) (haudio w₁ h₁) (haudio w₂ h₂)⟩

/-- The writer of a browser that takes H.264. -/
def h264Writer : Option (List PayloadParams) := some [⟨108,.h264,some 1⟩]

/-- Two frames a second apart, in a session that has been up for so long. -/
def twoFrames (uptime : ℚ≥0) : List Action :=
  [.connected,.pass uptime,.video h264Writer,.pass 1,.video h264Writer]

theorem media_advances_iff_first_second :
    ∃ s, Run step (start 0) (twoFrames 0).reverse s ∧
      (∀ w₁ ∈ s.videoWrites, ∀ w₂ ∈ s.videoWrites, (w₁.1 : ℚ) + 1 / (90000 : ℕ) ≤ w₂.1 →
        (Advances 90000 w₁ w₂ ↔ ⌊(w₂.1 * (90000 : ℕ) : ℚ)⌋ < 2 ^ 32)) ∧
      ∀ w₁ ∈ s.audioWrites, ∀ w₂ ∈ s.audioWrites, (w₁.1 : ℚ) + 1 / (48000 : ℕ) ≤ w₂.1 →
        (Advances 48000 w₁ w₂ ↔ ⌊(w₂.1 * (48000 : ℕ) : ℚ)⌋ < 2 ^ 32) := by
  obtain ⟨s,hrun,_⟩ := exists_run_of_replay step (start 0) (twoFrames 0)
    (fun s => s.videoWrites.length = 2) (by decide +kernel)
  exact ⟨s,hrun,media_advances_iff hrun⟩

/-- After 13 hours and a quarter the video clock stands still. -/
theorem clock_stalls :
    ¬ ∀ gap as s, Run step (start gap) as s →
      NeverStalls 90000 s.videoWrites ∧ NeverStalls 48000 s.audioWrites := by
  intro h
  obtain ⟨s,hrun,hp⟩ := exists_run_of_replay step (start 0) (twoFrames 47722)
    (fun s => s.videoWrites = [(47723,⟨108,.from90khz 4294967295⟩),(47722,⟨108,.from90khz 4294967295⟩)])
    (by decide +kernel)
  have hwrites := of_decide_eq_true hp
  have hadvances := (h 0 _ s hrun).1
  rw [hwrites] at hadvances
  have hlt := (hadvances (47722,⟨108,.from90khz 4294967295⟩) (by simp)
    (47723,⟨108,.from90khz 4294967295⟩) (by simp) (by norm_num)).1
  exact absurd hlt (lt_irrefl _)

end MediaClock
end AnyKvm
