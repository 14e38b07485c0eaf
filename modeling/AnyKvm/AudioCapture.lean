import AnyKvm.Mpsc
import AnyKvm.Outcome
import AnyKvm.Transition

/-! The loop of `audio.rs`: a period is read from the device into a buffer that is used again and again, encoded,
and sent. -/
namespace AnyKvm
namespace Audio
open Transition

def frameSamples : ℕ := 960

/-- Where the loop is: before `readi`, in `blocking_send` with a packet, or behind the end, with an error or without. -/
inductive Phase
  | reading
  | sending (frame : Bytes)
  | failed (context : String)
  | finished
  deriving DecidableEq

/-- `given` is history: the slices that the encoder was given, newest first. -/
structure State (E : Type) where
  encoder : E
  pcmBuf : List Int16
  tx : Mpsc Bytes 64 := {}
  phase : Phase := .reading
  given : List (List Int16) := []

/-- What comes back from the device or becomes of the channel; `readi` is a number of frames and their samples. -/
inductive Action
  | readi (read : ℕ) (pcm : List Int16)
  | readError (errno : ℤ)
  | blockingSend
  | recv
  | close
  deriving DecidableEq

section Loop
variable {E : Type} (encode : E → List Int16 → Except String (E × Bytes)) (channels : ℕ)

def start (encoder : E) : State E where
  encoder := encoder
  pcmBuf := List.replicate (frameSamples * channels) 0

namespace State
variable (s : State E)

def fill (pcm : List Int16) : State E := { s with pcmBuf := pcm ++ s.pcmBuf.drop pcm.length }

def zeroUnread (read : ℕ) : State E :=
  let filled := read * channels
  if filled < s.pcmBuf.length then
    { s with pcmBuf := s.pcmBuf.take filled ++ List.replicate (s.pcmBuf.length - filled) 0 }
  else s

def encodeFrame (read : ℕ) : State E :=
  let slice := s.pcmBuf.take (read * channels)
  match encode s.encoder slice with
  | .ok (encoder,frame) => { s with encoder := encoder, phase := .sending frame, given := slice :: s.given }
  | .error _ => { s with phase := .failed "Opus encode error", given := slice :: s.given }

/-- `blocking_send` waits while the channel is full. -/
def sendFrame (frame : Bytes) : Option (State E) :=
  match s.tx.trySend frame with
  | (.ok,tx) => some { s with tx := tx, phase := .reading }
  | (.closed,_) => some { s with phase := .finished }
  | (.full,_) => none

end State

/-- The device returns no more frames than the buffer takes. An error is recovered from and counts as no frames. -/
def step (s : State E) : Action → Option (State E)
  | .readi read pcm =>
    if s.phase = .reading ∧ read ≤ frameSamples ∧ pcm.length = read * channels then
      if read = 0 then some s
      else some (((s.fill pcm).zeroUnread channels read).encodeFrame encode channels read)
    else none
  | .readError _ => if s.phase = .reading then some s else none
  | .blockingSend =>
    match s.phase with
    | .sending frame => s.sendFrame frame
    | _ => none
  | .recv => s.tx.recv.map fun tx => { s with tx := tx }
  | .close => some { s with tx := s.tx.close }

end Loop

/-- The frame sizes that the encoder takes at 48 kHz, in samples per channel. -/
def opusSizes : List ℕ := [120,240,480,960,1920,2880,3840,4800,5760]

/-- The documented behaviour of the encoder: it takes these sizes and rejects all others. -/
structure Opus {E : Type} (encode : E → List Int16 → Except String (E × Bytes)) (channels : ℕ) : Prop where
  takes : ∀ encoder pcm, (∃ size ∈ opusSizes, pcm.length = size * channels) → ∃ next, encode encoder pcm = .ok next
  rejects : ∀ encoder pcm, (¬ ∃ size ∈ opusSizes, pcm.length = size * channels) →
    ∃ error, encode encoder pcm = .error error

def Phase.Ended : Phase → Prop
  | .failed _ | .finished => True
  | _ => False

/-- Each period that is read becomes a whole frame, filled with zeros, and the loop ends only if the receiver has
gone. -/
def Survives (channels : ℕ) {E : Type} (s : State E) (a : Action) (s' : State E) : Prop :=
  (∀ read pcm, a = .readi read pcm → 0 < read →
    s'.given = (pcm ++ List.replicate (frameSamples * channels - pcm.length) 0) :: s.given) ∧
  (s'.phase.Ended → s'.tx.closed = true)

def WholePeriod (a : Action) : Prop := ∀ read pcm, a = .readi read pcm → 0 < read → read = frameSamples

section Rules
variable {E : Type} {encode : E → List Int16 → Except String (E × Bytes)} {channels : ℕ}

/-- The buffer keeps its length, and behind the end the receiver has gone. -/
structure State.Sound (channels : ℕ) (s : State E) : Prop where
  length : s.pcmBuf.length = frameSamples * channels
  closed : s.phase.Ended → s.tx.closed = true

theorem start_sound (encoder : E) : (start channels encoder).Sound channels :=
  ⟨List.length_replicate,fun h => h.elim⟩

namespace State
variable {s s' : State E}

theorem zeroUnread_fill (hs : s.Sound channels) {read : ℕ} {pcm : List Int16} (hread : read ≤ frameSamples)
    (hlen : pcm.length = read * channels) :
    ((s.fill pcm).zeroUnread channels read).pcmBuf =
      pcm ++ List.replicate (frameSamples * channels - pcm.length) 0 := by
  have hfits : read * channels ≤ frameSamples * channels := Nat.mul_le_mul_right channels hread
  have hbuf : (pcm ++ s.pcmBuf.drop pcm.length).length = frameSamples * channels := by
    rw [List.length_append,List.length_drop,hs.length]
    omega
  by_cases hshort : read * channels < frameSamples * channels
  · simp only [fill,zeroUnread,hbuf,hshort,if_true]
    rw [← hlen,List.take_left]
  · have hrest : frameSamples * channels - pcm.length = 0 := by omega
    simp only [fill,zeroUnread,hbuf,hshort,if_false]
    rw [hrest,List.drop_eq_nil_of_le (by rw [hs.length]; omega),List.replicate_zero]

theorem slice_eq (hs : s.Sound channels) {read : ℕ} {pcm : List Int16} (hread : read ≤ frameSamples)
    (hlen : pcm.length = read * channels) :
    ((s.fill pcm).zeroUnread channels read).pcmBuf.take (read * channels) = pcm := by
  rw [zeroUnread_fill hs hread hlen,← hlen,List.take_left]

theorem encodeFrame_given (hs : s.Sound channels) {read : ℕ} {pcm : List Int16} (hread : read ≤ frameSamples)
    (hlen : pcm.length = read * channels) :
    (((s.fill pcm).zeroUnread channels read).encodeFrame encode channels read).given = pcm :: s.given := by
  have hgiven : ((s.fill pcm).zeroUnread channels read).given = s.given := by
    simp only [zeroUnread]
    split <;> rfl
  simp only [encodeFrame,slice_eq hs hread hlen]
  split
  · rw [hgiven]
  · rw [hgiven]

theorem encodeFrame_length (hs : s.Sound channels) {read : ℕ} {pcm : List Int16} (hread : read ≤ frameSamples)
    (hlen : pcm.length = read * channels) :
    (((s.fill pcm).zeroUnread channels read).encodeFrame encode channels read).pcmBuf.length =
      frameSamples * channels := by
  have hfits : read * channels ≤ frameSamples * channels := Nat.mul_le_mul_right channels hread
  have hbuf := congrArg List.length (zeroUnread_fill hs hread hlen)
  rw [List.length_append,List.length_replicate] at hbuf
  simp only [encodeFrame]
  split
  · rw [hbuf]
    omega
  · rw [hbuf]
    omega

theorem encodeFrame_whole (hopus : Opus encode channels) (hs : s.Sound channels) {pcm : List Int16}
    (hlen : pcm.length = frameSamples * channels) :
    ∃ frame, (((s.fill pcm).zeroUnread channels frameSamples).encodeFrame encode channels frameSamples).phase =
      .sending frame := by
  obtain ⟨next,hnext⟩ := hopus.takes ((s.fill pcm).zeroUnread channels frameSamples).encoder pcm
    ⟨frameSamples,by decide,hlen⟩
  simp only [encodeFrame,slice_eq hs le_rfl hlen,hnext]
  exact ⟨_,rfl⟩

/-- Any other number of frames that is no size of the encoder ends the loop with an error. -/
theorem encodeFrame_short (hopus : Opus encode channels) (hs : s.Sound channels) (hchannels : 0 < channels)
    {read : ℕ} {pcm : List Int16} (hread : read ≤ frameSamples) (hlen : pcm.length = read * channels)
    (hsize : read ∉ opusSizes) :
    (((s.fill pcm).zeroUnread channels read).encodeFrame encode channels read).phase =
      .failed "Opus encode error" := by
  have hillegal : ¬ ∃ size ∈ opusSizes, pcm.length = size * channels := by
    rintro ⟨size,hmem,hsame⟩
    rw [hlen] at hsame
    rw [Nat.eq_of_mul_eq_mul_right hchannels hsame] at hsize
    exact hsize hmem
  obtain ⟨error,herror⟩ := hopus.rejects ((s.fill pcm).zeroUnread channels read).encoder pcm hillegal
  simp only [encodeFrame,slice_eq hs hread hlen,herror]

theorem sendFrame_sound (hs : s.Sound channels) {frame : Bytes} (h : s.sendFrame frame = some s') :
    s'.Sound channels := by
  unfold sendFrame at h
  split at h
  · cases h
    exact ⟨hs.length,fun hended => hended.elim⟩
  next hsend =>
    cases h
    refine ⟨hs.length,fun _ => ?_⟩
    by_contra hopen
    unfold Mpsc.trySend at hsend
    rw [if_neg hopen] at hsend
    split at hsend <;> cases hsend
  · cases h

theorem other_sound (hs : s.Sound channels) {a : Action} (h : step encode channels s a = some s')
    (hother : ∀ read pcm, a = .readi read pcm → read = 0) : s'.Sound channels := by
  cases a with
  | readi read pcm =>
    simp only [step] at h
    split at h
    · rw [if_pos (hother read pcm rfl)] at h
      cases h
      exact hs
    · cases h
  | readError errno =>
    simp only [step] at h
    split at h
    · cases h
      exact hs
    · cases h
  | blockingSend =>
    simp only [step] at h
    split at h
    · exact sendFrame_sound hs h
    · cases h
  | recv =>
    obtain ⟨tx,htx,rfl⟩ := Option.map_eq_some_iff.mp h
    refine ⟨hs.length,fun hended => ?_⟩
    have hopen := (Mpsc.recv_eq_some.mp htx).1
    rw [hs.closed hended] at hopen
    cases hopen
  | close =>
    cases h
    exact ⟨hs.length,fun _ => rfl⟩

theorem readi_eq {read : ℕ} {pcm : List Int16} (hpos : 0 < read)
    (h : step encode channels s (.readi read pcm) = some s') :
    (s.phase = .reading ∧ read ≤ frameSamples ∧ pcm.length = read * channels) ∧
      s' = ((s.fill pcm).zeroUnread channels read).encodeFrame encode channels read := by
  simp only [step] at h
  split at h
  next hperiod =>
    rw [if_neg (Nat.ne_of_gt hpos)] at h
    exact ⟨hperiod,(Option.some.inj h).symm⟩
  · cases h

theorem step_sound (hopus : Opus encode channels) (hs : s.Sound channels) {a : Action}
    (h : step encode channels s a = some s') (hwhole : WholePeriod a) : s'.Sound channels := by
  by_cases hread : ∃ read pcm, a = .readi read pcm ∧ 0 < read
  · obtain ⟨read,pcm,rfl,hpos⟩ := hread
    obtain ⟨⟨_,hle,hlen⟩,rfl⟩ := readi_eq hpos h
    have hfull := hwhole read pcm rfl hpos
    subst hfull
    refine ⟨encodeFrame_length hs hle hlen,fun hended => ?_⟩
    obtain ⟨frame,hframe⟩ := encodeFrame_whole hopus hs hlen
    rw [hframe] at hended
    exact hended.elim
  · refine other_sound hs h fun read pcm ha => ?_
    by_contra hpos
    exact hread ⟨read,pcm,ha,Nat.pos_of_ne_zero hpos⟩

theorem survives_iff (hopus : Opus encode channels) (hchannels : 0 < channels) (hs : s.Sound channels) {a : Action}
    (h : step encode channels s a = some s') : WholePeriod a ↔ Survives channels s a s' := by
  constructor
  · intro hwhole
    refine ⟨fun read pcm ha hpos => ?_,(step_sound hopus hs h hwhole).closed⟩
    subst ha
    obtain ⟨⟨_,hle,hlen⟩,rfl⟩ := readi_eq hpos h
    rw [encodeFrame_given hs hle hlen,hlen,hwhole read pcm rfl hpos,Nat.sub_self,List.replicate_zero,List.append_nil]
  · rintro ⟨hframe,_⟩ read pcm rfl hpos
    obtain ⟨⟨_,hle,hlen⟩,rfl⟩ := readi_eq hpos h
    have hgiven := hframe read pcm rfl hpos
    rw [encodeFrame_given hs hle hlen] at hgiven
    have hlengths := congrArg List.length (List.cons.inj hgiven).1
    rw [List.length_append,List.length_replicate,hlen] at hlengths
    have hfits : frameSamples * channels ≤ read * channels := by omega
    exact le_antisymm hle (Nat.le_of_mul_le_mul_right hfits hchannels)

end State

/-- The audio loop survives a run, with a whole frame for every period, exactly if every read that returns frames
returns a whole period. -/
theorem audio_survives_iff (hopus : Opus encode channels) (hchannels : channels = 1 ∨ channels = 2) (encoder : E)
    (actions : List Action) (s : State E) (h : Run (step encode channels) (start channels encoder) actions s) :
    Always (step encode channels) (start channels encoder)
        (LastStep (step encode channels) (start channels encoder) (Survives channels)) actions ↔
      GuardedRun (step encode channels) (start channels encoder) (fun _ _ => WholePeriod) actions s := by
  refine h.always_lastStep_iff ?_
  intro as before a after hguarded hstep
  have hsound : before.Sound channels := by
    refine hguarded.invariant (P := fun _ s => s.Sound channels) (start_sound encoder) ?_
    intro _ _ _ _ _ hs hwhole hs'
    exact State.step_sound hopus hs hs' hwhole
  exact State.survives_iff hopus (by omega) hsound hstep

end Rules

/-- An encoder of the documented kind, with packets of one byte. -/
def encodeSizes (_ : Unit) (pcm : List Int16) : Except String (Unit × Bytes) :=
  if ∃ size ∈ opusSizes, pcm.length = size * 1 then .ok ((),[0]) else .error "invalid argument"

theorem encodeSizes_opus : Opus encodeSizes 1 :=
  ⟨fun _ _ h => ⟨_,if_pos h⟩,fun _ _ h => ⟨_,if_neg h⟩⟩

/-- A whole period, a broken read, and a receiver that goes away. -/
def wholeCapture : List Action :=
  [.readi 960 (List.replicate 960 7),.blockingSend,.readError (-32),.readi 960 (List.replicate 960 3),.close,.blockingSend]

theorem audio_survives_iff_wholeCapture :
    ∃ s, Run (step encodeSizes 1) (start 1 ()) wholeCapture.reverse s ∧
      (Always (step encodeSizes 1) (start 1 ())
          (LastStep (step encodeSizes 1) (start 1 ()) (Survives 1)) wholeCapture.reverse ↔
        GuardedRun (step encodeSizes 1) (start 1 ()) (fun _ _ => WholePeriod) wholeCapture.reverse s) := by
  obtain ⟨s,hrun,-⟩ := exists_run_of_replay (step encodeSizes 1) (start 1 ()) wholeCapture
    (fun s => decide (s.phase = .finished)) (by decide +kernel)
  exact ⟨s,hrun,audio_survives_iff encodeSizes_opus (.inl rfl) () wholeCapture.reverse s hrun⟩

/-- A first read of 100 frames ends the loop while the receiver is there. -/
theorem short_read_ends_loop :
    ¬ ∀ (encode : Unit → List Int16 → Except String (Unit × Bytes)) (channels : ℕ), Opus encode channels →
      channels = 1 ∨ channels = 2 → ∀ actions s, Run (step encode channels) (start channels ()) actions s →
      Always (step encode channels) (start channels ())
        (LastStep (step encode channels) (start channels ()) (Survives channels)) actions := by
  intro h
  obtain ⟨s,hrun,hs⟩ := exists_run_of_replay (step encodeSizes 1) (start 1 ()) [.readi 100 (List.replicate 100 7)]
    (fun s => decide (s.phase = .failed "Opus encode error" ∧ s.tx.closed = false)) (by decide +kernel)
  obtain ⟨hphase,hopen⟩ := of_decide_eq_true hs
  have hsurvives := (h encodeSizes 1 encodeSizes_opus (.inl rfl) _ s hrun).here hrun (start 1 ()) .init
  have hclosed := hsurvives.2 (by rw [hphase]; trivial)
  rw [hopen] at hclosed
  cases hclosed

end Audio
end AnyKvm
