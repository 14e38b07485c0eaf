import AnyKvm.AgentSession

/-! Where the messages are that the signal task of a session has read.
Answers and candidates go to two bounded channels, which `webrtc::run` reads in a fixed
order: one answer, and then candidates only. -/
namespace AnyKvm
namespace Agent

open Transition

def SignalPhase.answer? {Sdp Cand : Type*} : SignalPhase Sdp Cand → Option Sdp
  | .sendAnswer sdp => some sdp
  | _ => none

def SignalPhase.cand? {Sdp Cand : Type*} : SignalPhase Sdp Cand → Option Cand
  | .sendCand cand => some cand
  | _ => none

/-- The main loop of `webrtc::run`, which is entered with an accepted answer. -/
def WebrtcPhase.inLoop : WebrtcPhase → Bool
  | .gathering | .waiting | .ended => false
  | _ => true

section Machine
variable {Raw Sdp Cand : Type*} (fromStr : Raw → Option (SignalMsg Sdp Cand)) (accepts : Sdp → Bool)

/-- What `handle_incoming` forwards: an answer, a candidate or nothing. -/
def incoming? (raw : Raw) : Option (Sdp ⊕ Cand) :=
  (fromStr raw).bind fun msg =>
    if msg.msgType = "answer" then msg.sdp.map .inl
    else if msg.msgType = "candidate" then msg.candidate.map .inr
    else none

def incoming (ms : List Raw) : List (Sdp ⊕ Cand) := ms.filterMap (incoming? fromStr)

def answersOf (l : List (Sdp ⊕ Cand)) : List Sdp := l.filterMap Sum.getLeft?

def candsOf (l : List (Sdp ⊕ Cand)) : List Cand := l.filterMap Sum.getRight?

/-- The texts that the signal task has read, oldest first. -/
def texts : List (Action Raw) → List Raw
  | [] => []
  | .read (.text raw) :: as => texts as ++ [raw]
  | _ :: as => texts as

variable {fromStr accepts} {as : List (Action Raw)} {s s' : Session Sdp Cand} {a : Action Raw}
variable {l : List (Sdp ⊕ Cand)}

theorem handleIncoming_eq (raw : Raw) : s.handleIncoming fromStr raw = match incoming? fromStr raw with
    | none => s
    | some (.inl sdp) => { s with signal := .sendAnswer sdp }
    | some (.inr cand) => { s with signal := .sendCand cand } := by
  unfold Session.handleIncoming incoming?
  cases fromStr raw with
  | none => rfl
  | some msg =>
    simp only [Option.bind_some]
    split
    · cases msg.sdp <;> rfl
    · split
      · cases msg.candidate <;> rfl
      · rfl

/-- Where the messages read so far are: handed over, queued or about to be sent. The candidates are
counted only until the first answer is taken. -/
structure Tally (accepts : Sdp → Bool) (l : List (Sdp ⊕ Cand)) (s : Session Sdp Cand) : Prop where
  gathering : s.webrtc = .gathering → s.signal = .awaitOffer ∧ s.offered = false
  early : s.webrtc = .gathering ∨ s.webrtc = .waiting → s.taken = none
  late : s.webrtc.inLoop = true → ∃ sdp, s.taken = some sdp ∧ accepts sdp = true
  answers : s.webrtc ≠ .ended →
    answersOf l = s.taken.toList ++ s.answers.items ++ s.signal.answer?.toList
  cands : s.webrtc ≠ .ended → s.taken = none → candsOf l = s.cands.items ++ s.signal.cand?.toList

theorem Tally.ended (h : s.webrtc = .ended) : Tally accepts l s := by
  constructor <;> simp [h,WebrtcPhase.inLoop]

theorem Tally.loop {f : Session Sdp Cand} (h : Tally accepts l s) (hloop : s.webrtc.inLoop = true)
    (hsignal : f.signal = s.signal) (hanswers : f.answers = s.answers) (htaken : f.taken = s.taken)
    (hphase : f.webrtc.inLoop = true ∨ f.webrtc = .ended) : Tally accepts l f := by
  rcases hphase with hphase | hphase
  · obtain ⟨sdp,hsdp,hacc⟩ := h.late hloop
    have hne : s.webrtc ≠ .ended := by rintro he; rw [he] at hloop; cases hloop
    refine ⟨?_,?_,fun _ => ⟨sdp,htaken.trans hsdp,hacc⟩,fun _ => ?_,?_⟩
    · intro hg
      rw [hg] at hphase
      cases hphase
    · rintro (hg | hg) <;> rw [hg] at hphase <;> cases hphase
    · rw [hsignal,hanswers,htaken,h.answers hne]
    · intro _ hnone
      rw [htaken,hsdp] at hnone
      cases hnone
  · exact .ended hphase

theorem Tally.gathered (h : Tally accepts l s) (hoffer : s.signal ≠ .awaitOffer) :
    s.webrtc ≠ .gathering :=
  fun hg => hoffer (h.gathering hg).1

theorem Tally.signal (h : Tally accepts l s) {phase : SignalPhase Sdp Cand} (hwait : s.signal ≠ .awaitOffer)
    (hold : s.signal.answer? = none ∧ s.signal.cand? = none)
    (hnew : phase.answer? = none ∧ phase.cand? = none) : Tally accepts l { s with signal := phase } := by
  refine ⟨fun hg => absurd hg (h.gathered hwait),h.early,h.late,fun hne => ?_,fun hne hnone => ?_⟩
  · rw [h.answers hne,hold.1,hnew.1]
  · rw [h.cands hne hnone,hold.2,hnew.2]

theorem Tally.recvAnswer (h : Tally accepts l s) (hphase : s.webrtc = .waiting)
    (hs : s.recvAnswer accepts = some s') : Tally accepts l s' := by
  rcases recvAnswer_eq_some.mp hs with ⟨sdp,answers,hitems,rfl⟩ | ⟨_,_,rfl⟩
  · have hnone := h.early (.inr hphase)
    have hanswers := h.answers (by rw [hphase]; simp)
    by_cases hacc : accepts sdp = true
    · rw [hacc,if_pos rfl]
      refine ⟨by rintro ⟨⟩,?_,fun _ => ⟨sdp,rfl,hacc⟩,fun _ => ?_,by rintro _ ⟨⟩⟩
      · rintro (hg | hg) <;> cases hg
      · rw [hanswers,hnone,hitems]
        rfl
    · rw [if_neg hacc]
      exact .ended rfl
  · exact .ended rfl

theorem Tally.handleEvent (h : Tally accepts l s) (hphase : s.webrtc = .poll) (e : Event) :
    Tally accepts l (s.handleEvent e) := by
  have hloop : s.webrtc.inLoop = true := by rw [hphase]; rfl
  unfold Session.handleEvent
  split
  · exact h.loop hloop rfl rfl rfl (.inl hloop)
  · exact h.loop hloop rfl rfl rfl (.inl rfl)
  · exact h.loop hloop rfl rfl rfl (.inl hloop)
  · exact h.loop hloop rfl rfl rfl (.inl hloop)
  · split
    · exact .ended rfl
    · exact h.loop hloop rfl rfl rfl (.inl hloop)
  · exact h
  · exact h.loop hloop rfl rfl rfl (.inl hloop)
  · exact h

theorem Tally.read (h : Tally accepts l s) (hphase : s.signal = .reading) (raw : Raw) :
    Tally accepts (l ++ incoming fromStr [raw]) (s.handleIncoming fromStr raw) := by
  have hgathered := h.gathered (by simp [hphase])
  rw [handleIncoming_eq]
  cases hin : incoming? fromStr raw with
  | none => simpa [incoming,hin] using h
  | some msg =>
    have hl : incoming fromStr [raw] = [msg] := by simp [incoming,hin]
    rw [hl]
    cases msg with
    | inl sdp =>
      refine ⟨fun hg => absurd hg hgathered,h.early,h.late,fun hne => ?_,fun hne hnone => ?_⟩
      · have hanswers := h.answers hne
        rw [hphase] at hanswers
        simp_all [answersOf,SignalPhase.answer?]
      · have hcands := h.cands hne hnone
        rw [hphase] at hcands
        simp_all [candsOf,SignalPhase.cand?]
    | inr cand =>
      refine ⟨fun hg => absurd hg hgathered,h.early,h.late,fun hne => ?_,fun hne hnone => ?_⟩
      · have hanswers := h.answers hne
        rw [hphase] at hanswers
        simp_all [answersOf,SignalPhase.answer?]
      · have hcands := h.cands hne hnone
        rw [hphase] at hcands
        simp_all [candsOf,SignalPhase.cand?]

theorem Tally.sent (h : Tally accepts l s) (hs : s.sent = some s') : Tally accepts l s' := by
  rcases sent_eq_some.mp hs with ⟨sdp,hphase,⟨he,rfl⟩ | ⟨hne,answers,hpush,rfl⟩⟩ |
      ⟨cand,hphase,⟨he,rfl⟩ | ⟨hne,cands,hpush,rfl⟩⟩
  · exact .ended he
  · have hitems := BoundedQueue.items_of_push? hpush
    have hgathered := h.gathered (by simp [hphase])
    refine ⟨fun hg => absurd hg hgathered,h.early,h.late,fun _ => ?_,fun _ hnone => ?_⟩
    · simp [h.answers hne,hphase,hitems,SignalPhase.answer?]
    · simp [h.cands hne hnone,hphase,SignalPhase.cand?]
  · exact .ended he
  · have hitems := BoundedQueue.items_of_push? hpush
    have hgathered := h.gathered (by simp [hphase])
    refine ⟨fun hg => absurd hg hgathered,h.early,h.late,fun _ => ?_,fun _ hnone => ?_⟩
    · simp [h.answers hne,hphase,SignalPhase.answer?]
    · simp [h.cands hne hnone,hphase,hitems,SignalPhase.cand?]

theorem Tally.gather (h : Tally accepts l s) (hphase : s.webrtc = .gathering) (ok : Bool) :
    Tally accepts l (s.gather ok) := by
  have hne : s.webrtc ≠ .ended := by rw [hphase]; simp
  have hnone := h.early (.inl hphase)
  unfold Session.gather
  split
  · exact ⟨by rintro ⟨⟩,fun _ => hnone,by rintro ⟨⟩,fun _ => h.answers hne,fun _ => h.cands hne⟩
  · exact .ended rfl

theorem Tally.candsDone (h : Tally accepts l s) (hphase : s.webrtc = .cands) (hs : s.candsDone = some s') :
    Tally accepts l s' := by
  unfold Session.candsDone at hs
  split at hs
  · cases hs
    exact h.loop (by rw [hphase]; rfl) rfl rfl rfl (.inl rfl)
  · cases hs

/-- The offer is there, so `webrtc::run` is past its gathering. -/
theorem Tally.recvOffer (h : Tally accepts l s) (hphase : s.signal = .awaitOffer) (hs : s.recvOffer = some s') :
    Tally accepts l s' := by
  unfold Session.recvOffer at hs
  split at hs
  · rename_i hoffered
    cases hs
    refine ⟨fun hg => ?_,h.early,h.late,fun hne => ?_,fun hne hnone => ?_⟩
    · rw [(h.gathering hg).2] at hoffered
      cases hoffered
    · refine (h.answers hne).trans ?_
      rw [hphase]
      rfl
    · refine (h.cands hne hnone).trans ?_
      rw [hphase]
      rfl
  · split at hs
    · cases hs
      rename_i he
      exact .ended he
    · cases hs

/-- Only texts count. -/
theorem Tally.readMsg (h : Tally accepts (incoming fromStr (texts as)) s) (hphase : s.signal = .reading)
    (msg : WsMessage Raw) :
    Tally accepts (incoming fromStr (texts (.read msg :: as))) (s.read fromStr msg) := by
  cases msg with
  | text raw =>
    have hl : incoming fromStr (texts (.read (.text raw) :: as)) =
        incoming fromStr (texts as) ++ incoming fromStr [raw] := List.filterMap_append
    rw [hl]
    exact h.read hphase raw
  | ping => exact h
  | other => exact h
  | _ => exact h.signal (by simp [hphase]) (by rw [hphase]; exact ⟨rfl,rfl⟩) ⟨rfl,rfl⟩

theorem Tally.step (h : Tally accepts (incoming fromStr (texts as)) s)
    (hs : Agent.step fromStr accepts s a = some s') :
    Tally accepts (incoming fromStr (texts (a :: as))) s' := by
  have hs := step_eq_some.mp hs
  cases a with
  | gather ok =>
    obtain ⟨hphase,rfl⟩ := hs
    exact h.gather hphase ok
  | recvAnswer => exact h.recvAnswer hs.1 hs.2
  | checkAlive alive =>
    obtain ⟨hphase,rfl⟩ := hs
    exact h.loop (by rw [hphase]; rfl) rfl rfl rfl (by cases alive <;> simp [WebrtcPhase.inLoop])
  | recvCand =>
    obtain ⟨hphase,hs⟩ := hs
    obtain ⟨_,cands,_,rfl⟩ := recvCand_eq_some.mp hs
    have hloop : s.webrtc.inLoop = true := by rw [hphase]; rfl
    exact h.loop hloop rfl rfl rfl (.inl hloop)
  | candsDone => exact h.candsDone hs.1 hs.2
  | event e =>
    obtain ⟨hphase,rfl⟩ := hs
    exact h.handleEvent hphase e
  | hidSent =>
    obtain ⟨⟨data,hphase⟩,rfl⟩ := hs
    exact h.loop (by rw [hphase]; rfl) rfl rfl rfl (.inl rfl)
  | pollTimeout =>
    obtain ⟨hphase,rfl⟩ := hs
    exact h.loop (by rw [hphase]; rfl) rfl rfl rfl (.inl rfl)
  | pollError =>
    obtain ⟨hphase,rfl⟩ := hs
    exact .ended rfl
  | selected ok =>
    obtain ⟨hphase,rfl⟩ := hs
    exact h.loop (by rw [hphase]; rfl) rfl rfl rfl (by cases ok <;> simp [WebrtcPhase.inLoop])
  | recvOffer => exact h.recvOffer hs.1 hs.2
  | connect ok =>
    obtain ⟨hphase,rfl⟩ := hs
    exact h.signal (by simp [hphase]) (by rw [hphase]; exact ⟨rfl,rfl⟩) (by cases ok <;> exact ⟨rfl,rfl⟩)
  | sendOffer ok =>
    obtain ⟨hphase,rfl⟩ := hs
    exact h.signal (by simp [hphase]) (by rw [hphase]; exact ⟨rfl,rfl⟩) (by cases ok <;> exact ⟨rfl,rfl⟩)
  | read msg =>
    obtain ⟨hphase,rfl⟩ := hs
    exact h.readMsg hphase msg
  | sent => exact h.sent hs
  | retry =>
    obtain ⟨hphase,rfl⟩ := hs
    exact h.signal (by simp [hphase]) (by rw [hphase]; exact ⟨rfl,rfl⟩) ⟨rfl,rfl⟩
  | abort =>
    obtain ⟨_,rfl⟩ := hs
    exact .ended rfl

theorem tally {peerConnected keyframe : Bool}
    (h : Run (Agent.step fromStr accepts) (.start peerConnected keyframe) as s) :
    Tally accepts (incoming fromStr (texts as)) s := by
  refine h.invariant (P := fun as s => Tally accepts (incoming fromStr (texts as)) s) ?_ ?_
  · exact ⟨fun _ => ⟨rfl,rfl⟩,fun _ => rfl,by rintro ⟨⟩,fun _ => rfl,fun _ _ => rfl⟩
  · intro as s a s' _ htally hs
    exact htally.step hs

/-- The answers in the hands of a session: taken, queued or about to be queued. -/
def Session.held (s : Session Sdp Cand) : List Sdp :=
  s.taken.toList ++ s.answers.items ++ s.signal.answer?.toList

theorem mem_held {sdp : Sdp} : sdp ∈ s.held ↔
    s.taken = some sdp ∨ sdp ∈ s.answers.items ∨ s.signal.answer? = some sdp := by
  simp [Session.held]

theorem held_of_quiet {sdp : Sdp} (h : sdp ∈ s'.held) (htaken : s'.taken = s.taken)
    (hanswers : s'.answers = s.answers) (hsignal : s'.signal.answer? = none) : sdp ∈ s.held := by
  rw [mem_held,htaken,hanswers,hsignal] at h
  rw [mem_held]
  rcases h with h | h | h
  · exact .inl h
  · exact .inr (.inl h)
  · cases h

theorem held_of_same {sdp : Sdp} (h : sdp ∈ s'.held) (htaken : s'.taken = s.taken)
    (hanswers : s'.answers = s.answers) (hsignal : s'.signal = s.signal) : sdp ∈ s.held := by
  rwa [Session.held,htaken,hanswers,hsignal] at h

def Action.isSignal : Action Raw → Bool
  | .recvOffer | .connect _ | .sendOffer _ | .read _ | .sent | .retry => true
  | _ => false

/-- The signal task does not touch the state of `webrtc::run`, and gives it answers by one step only. -/
theorem signal_step (hs : Agent.step fromStr accepts s a = some s') (ha : a.isSignal = true) :
    s'.webrtc = s.webrtc ∧ s'.iceConnected = s.iceConnected ∧ s'.iceFailed = s.iceFailed ∧
      (a ≠ .sent → s'.answers = s.answers) := by
  have hs := step_eq_some.mp hs
  cases a with
  | recvOffer =>
    obtain ⟨_,hs⟩ := hs
    unfold Session.recvOffer at hs
    split at hs
    · cases hs
      exact ⟨rfl,rfl,rfl,fun _ => rfl⟩
    · split at hs <;> cases hs
      exact ⟨rfl,rfl,rfl,fun _ => rfl⟩
  | connect ok =>
    obtain ⟨_,rfl⟩ := hs
    exact ⟨rfl,rfl,rfl,fun _ => rfl⟩
  | sendOffer ok =>
    obtain ⟨_,rfl⟩ := hs
    exact ⟨rfl,rfl,rfl,fun _ => rfl⟩
  | read msg =>
    obtain ⟨_,rfl⟩ := hs
    cases msg with
    | text raw =>
      rw [Session.read,handleIncoming_eq]
      split <;> exact ⟨rfl,rfl,rfl,fun _ => rfl⟩
    | _ => exact ⟨rfl,rfl,rfl,fun _ => rfl⟩
  | sent =>
    rcases sent_eq_some.mp hs with ⟨_,_,⟨_,rfl⟩ | ⟨_,_,_,rfl⟩⟩ | ⟨_,_,⟨_,rfl⟩ | ⟨_,_,_,rfl⟩⟩ <;>
      exact ⟨rfl,rfl,rfl,fun h => absurd rfl h⟩
  | retry =>
    obtain ⟨_,rfl⟩ := hs
    exact ⟨rfl,rfl,rfl,fun _ => rfl⟩
  | _ => cases ha

/-- `webrtc::run` touches its answers only to take one, and the signal task not at all. -/
theorem webrtc_step (hs : Agent.step fromStr accepts s a = some s') (ha : a.isSignal = false)
    (hanswer : a ≠ .recvAnswer) (habort : a ≠ .abort) :
    s'.taken = s.taken ∧ s'.answers = s.answers ∧ s'.signal = s.signal := by
  have hs := step_eq_some.mp hs
  cases a with
  | gather ok =>
    obtain ⟨_,rfl⟩ := hs
    unfold Session.gather
    split <;> exact ⟨rfl,rfl,rfl⟩
  | checkAlive alive =>
    obtain ⟨_,rfl⟩ := hs
    exact ⟨rfl,rfl,rfl⟩
  | recvCand =>
    obtain ⟨_,cands,_,rfl⟩ := recvCand_eq_some.mp hs.2
    exact ⟨rfl,rfl,rfl⟩
  | candsDone =>
    obtain ⟨_,hs⟩ := hs
    unfold Session.candsDone at hs
    split at hs <;> cases hs
    exact ⟨rfl,rfl,rfl⟩
  | event e =>
    obtain ⟨_,rfl⟩ := hs
    unfold Session.handleEvent
    split <;> first | exact ⟨rfl,rfl,rfl⟩ | skip
    split <;> exact ⟨rfl,rfl,rfl⟩
  | hidSent =>
    obtain ⟨_,rfl⟩ := hs
    exact ⟨rfl,rfl,rfl⟩
  | pollTimeout =>
    obtain ⟨_,rfl⟩ := hs
    exact ⟨rfl,rfl,rfl⟩
  | pollError =>
    obtain ⟨_,rfl⟩ := hs
    exact ⟨rfl,rfl,rfl⟩
  | selected ok =>
    obtain ⟨_,rfl⟩ := hs
    exact ⟨rfl,rfl,rfl⟩
  | recvAnswer => exact absurd rfl hanswer
  | abort => exact absurd rfl habort
  | _ => cases ha

theorem held_recvAnswer (hs : s.recvAnswer accepts = some s') {sdp : Sdp} (h : sdp ∈ s'.held) : sdp ∈ s.held := by
  rcases recvAnswer_eq_some.mp hs with ⟨sdp',answers,hitems,rfl⟩ | ⟨_,_,rfl⟩
  · rw [mem_held] at h
    rw [mem_held,hitems]
    rcases h with h | h | h
    · cases h
      exact .inr (.inl (List.mem_cons_self ..))
    · exact .inr (.inl (List.mem_cons_of_mem _ h))
    · exact .inr (.inr h)
  · exact held_of_same h rfl rfl rfl

theorem held_recvOffer (hs : s.recvOffer = some s') {sdp : Sdp} (h : sdp ∈ s'.held) : sdp ∈ s.held := by
  unfold Session.recvOffer at hs
  split at hs
  · cases hs
    exact held_of_quiet h rfl rfl rfl
  · split at hs <;> cases hs
    exact held_of_quiet h rfl rfl rfl

theorem held_read {msg : WsMessage Raw} {sdp : Sdp} (h : sdp ∈ (s.read fromStr msg).held) :
    sdp ∈ s.held ∨ ∃ raw, msg = .text raw ∧ incoming? fromStr raw = some (.inl sdp) := by
  cases msg with
  | text raw =>
    rw [Session.read,handleIncoming_eq] at h
    cases hraw : incoming? fromStr raw with
    | none =>
      rw [hraw] at h
      exact .inl h
    | some msg =>
      rw [hraw] at h
      cases msg with
      | inl sdp' =>
        rw [mem_held] at h
        rw [mem_held]
        rcases h with h | h | h
        · exact .inl (.inl h)
        · exact .inl (.inr (.inl h))
        · cases h
          exact .inr ⟨raw,rfl,hraw⟩
      | inr cand => exact .inl (held_of_quiet h rfl rfl rfl)
  | ping => exact .inl h
  | other => exact .inl h
  | _ => exact .inl (held_of_quiet h rfl rfl rfl)

theorem held_sent (hs : s.sent = some s') {sdp : Sdp} (h : sdp ∈ s'.held) : sdp ∈ s.held := by
  rcases sent_eq_some.mp hs with ⟨sdp',hphase,⟨_,rfl⟩ | ⟨_,answers,hpush,rfl⟩⟩ |
      ⟨cand,_,⟨_,rfl⟩ | ⟨_,cands,_,rfl⟩⟩
  · exact held_of_quiet h rfl rfl rfl
  · have hitems := BoundedQueue.items_of_push? hpush
    rw [mem_held,hitems,List.mem_append,List.mem_singleton] at h
    rw [mem_held,hphase]
    rcases h with h | (h | rfl) | h
    · exact .inl h
    · exact .inr (.inl h)
    · exact .inr (.inr rfl)
    · cases h
  · exact held_of_quiet h rfl rfl rfl
  · exact held_of_quiet h rfl rfl rfl

theorem held_step (hs : Agent.step fromStr accepts s a = some s') {sdp : Sdp} (h : sdp ∈ s'.held) :
    sdp ∈ s.held ∨ ∃ raw, a = .read (.text raw) ∧ incoming? fromStr raw = some (.inl sdp) := by
  have hact := step_eq_some.mp hs
  cases a with
  | recvAnswer => exact .inl (held_recvAnswer hact.2 h)
  | recvOffer => exact .inl (held_recvOffer hact.2 h)
  | connect ok =>
    obtain ⟨_,rfl⟩ := hact
    exact .inl (held_of_quiet h rfl rfl (by cases ok <;> rfl))
  | sendOffer ok =>
    obtain ⟨_,rfl⟩ := hact
    exact .inl (held_of_quiet h rfl rfl (by cases ok <;> rfl))
  | read msg =>
    obtain ⟨_,rfl⟩ := hact
    exact (held_read h).imp_right fun ⟨raw,hmsg,hraw⟩ => ⟨raw,congrArg Action.read hmsg,hraw⟩
  | sent => exact .inl (held_sent hact h)
  | retry =>
    obtain ⟨_,rfl⟩ := hact
    exact .inl (held_of_quiet h rfl rfl rfl)
  | abort =>
    obtain ⟨_,rfl⟩ := hact
    exact .inl (held_of_quiet h rfl rfl rfl)
  | _ =>
    obtain ⟨htaken,hanswers,hsignal⟩ := webrtc_step hs rfl (by simp) (by simp)
    exact .inl (held_of_same h htaken hanswers hsignal)

/-- A step that leaves the main loop: the peer connection is gone, str0m fails, `main` aborts the
task, or ICE has lost a connected peer. -/
def LeavesLoop (s : Session Sdp Cand) : Action Raw → Prop
  | .checkAlive alive => alive = false
  | .selected ok => ok = false
  | .pollError | .abort => True
  | .event e => e = .iceConnectionStateChange .disconnected ∧ s.iceConnected = true
  | _ => False

/-- In the main loop no answer is read, and only some steps leave it. -/
theorem inLoop_step (hs : Agent.step fromStr accepts s a = some s') (hloop : s.webrtc.inLoop = true) :
    a ≠ .recvAnswer ∧ (s'.webrtc.inLoop = true ∨ LeavesLoop s a ∧ s'.webrtc = .ended) := by
  by_cases ha : a.isSignal = true
  · refine ⟨?_,.inl ?_⟩
    · rintro rfl
      cases ha
    · rw [(signal_step hs ha).1]
      exact hloop
  have hs := step_eq_some.mp hs
  cases a with
  | gather ok => rw [hs.1] at hloop; cases hloop
  | recvAnswer => rw [hs.1] at hloop; cases hloop
  | checkAlive alive =>
    obtain ⟨_,rfl⟩ := hs
    cases alive with
    | false => exact ⟨by simp,.inr ⟨rfl,rfl⟩⟩
    | true => exact ⟨by simp,.inl rfl⟩
  | recvCand =>
    obtain ⟨_,cands,_,rfl⟩ := recvCand_eq_some.mp hs.2
    exact ⟨by simp,.inl hloop⟩
  | candsDone =>
    obtain ⟨_,hs⟩ := hs
    unfold Session.candsDone at hs
    split at hs <;> cases hs
    exact ⟨by simp,.inl rfl⟩
  | event e =>
    obtain ⟨_,rfl⟩ := hs
    refine ⟨by simp,?_⟩
    by_cases he : e = .iceConnectionStateChange .disconnected ∧ s.iceConnected = true
    · refine .inr ⟨he,?_⟩
      rw [he.1,Session.handleEvent,if_pos he.2]
    · left
      unfold Session.handleEvent
      split <;> first | exact hloop | rfl | skip
      split
      · rename_i hconnected
        exact absurd ⟨rfl,hconnected⟩ he
      · exact hloop
  | hidSent =>
    obtain ⟨_,rfl⟩ := hs
    exact ⟨by simp,.inl rfl⟩
  | pollTimeout =>
    obtain ⟨_,rfl⟩ := hs
    exact ⟨by simp,.inl rfl⟩
  | pollError =>
    obtain ⟨_,rfl⟩ := hs
    exact ⟨by simp,.inr ⟨trivial,rfl⟩⟩
  | selected ok =>
    obtain ⟨_,rfl⟩ := hs
    cases ok with
    | false => exact ⟨by simp,.inr ⟨rfl,rfl⟩⟩
    | true => exact ⟨by simp,.inl rfl⟩
  | abort =>
    obtain ⟨_,rfl⟩ := hs
    exact ⟨by simp,.inr ⟨trivial,rfl⟩⟩
  | _ => exact absurd rfl ha

/-- Where allowed steps keep a condition under which the loop is not left, answers are not read again. -/
theorem neverReads_of_kept {allowed : Action Raw → Prop} {I : Session Sdp Cand → Prop}
    (hloop : ∀ t, I t → t.webrtc.inLoop = true)
    (hkept : ∀ t b t', I t → allowed b → Agent.step fromStr accepts t b = some t' → I t') (h : I s) :
    NeverReads fromStr accepts allowed .recvAnswer s := by
  have hstay : ∀ bs t, Run (Agent.step fromStr accepts) s bs t → (∀ b ∈ bs, allowed b) →
      I t ∧ .recvAnswer ∉ bs := by
    intro bs t hrun
    induction hrun with
    | init => exact fun _ => ⟨h,by simp⟩
    | @next bs t t' b _ hs ih =>
      intro hallowed
      obtain ⟨ht,hbs⟩ := ih fun b hb => hallowed b (List.mem_cons_of_mem _ hb)
      have hne := (inLoop_step hs (hloop t ht)).1
      refine ⟨hkept t b t' ht (hallowed b List.mem_cons_self) hs,?_⟩
      simpa using ⟨hne.symm,hbs⟩
  intro bs t hrun hallowed
  obtain ⟨ht,hbs⟩ := hstay bs t hrun hallowed
  refine ⟨fun he => ?_,hbs⟩
  have hin := hloop t ht
  rw [he] at hin
  cases hin

end Machine

end Agent
end AnyKvm
