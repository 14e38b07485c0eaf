import AnyKvm.Rendezvous

/-! A session that could still connect but never looks at the answer of another browser.
ICE that fails before it has connected does not end the loop of `webrtc::run`, and the loop does not
read answers. -/
namespace AnyKvm
namespace Agent

open Transition

section Machine
variable {Raw Sdp Cand : Type*} (fromStr : Raw → Option (SignalMsg Sdp Cand)) (accepts : Sdp → Bool)

/-- The steps of `webrtc::run` under events short of `Event::Connected`, as long as str0m neither fails
nor gives up the connection. -/
def Calm : Action Raw → Prop
  | .checkAlive alive => alive = true
  | .selected ok => ok = true
  | .event e => e ≠ .connected
  | .recvAnswer | .recvCand | .candsDone | .hidSent | .pollTimeout => True
  | _ => False

/-- The session has taken an answer, ICE has failed before it was connected, and a later answer is
queued that no calm steps read. -/
structure Ignored (s : Session Sdp Cand) : Prop where
  running : s.webrtc ≠ .ended
  unconnected : s.iceConnected = false
  consumed : s.taken.isSome = true
  failed : s.iceFailed = true
  waiting : s.answers.items ≠ []
  neverReads : NeverReads fromStr accepts Calm .recvAnswer s

/-- Before the session is connected, ICE does not fail while an answer is queued, and no answer is
queued once ICE has failed. -/
def Heeds (s : Session Sdp Cand) : Action Raw → Prop
  | .event e => e = .iceConnectionStateChange .disconnected → s.answers.items ≠ [] →
      s.iceConnected = true
  | .sent => s.signal.answer?.isSome = true → s.webrtc.inLoop = true → s.iceFailed = true →
      s.iceConnected = true
  | _ => True

/-- The part of `Ignored` that the state shows. -/
structure Stuck (s : Session Sdp Cand) : Prop where
  loop : s.webrtc.inLoop = true
  unconnected : s.iceConnected = false
  failed : s.iceFailed = true
  waiting : s.answers.items ≠ []

/-- An answer is taken on the way into the loop, and ICE fails in it. -/
structure Paced (s : Session Sdp Cand) : Prop where
  early : s.webrtc = .gathering ∨ s.webrtc = .waiting → s.taken = none ∧ s.iceFailed = false
  late : s.webrtc.inLoop = true → s.taken.isSome = true

variable {fromStr accepts} {as : List (Action Raw)} {s s' : Session Sdp Cand} {a : Action Raw}

theorem handleEvent_unconnected {e : Event} (he : e ≠ .connected) (h : s.iceConnected = false) :
    (s.handleEvent e).iceConnected = false := by
  unfold Session.handleEvent
  split <;> first | exact absurd rfl he | exact h | skip
  split <;> exact h

theorem calm_unconnected (hs : Agent.step fromStr accepts s a = some s') (ha : Calm a)
    (h : s.iceConnected = false) : s'.iceConnected = false := by
  have hs := step_eq_some.mp hs
  cases a with
  | recvAnswer =>
    rcases recvAnswer_eq_some.mp hs.2 with ⟨_,_,_,rfl⟩ | ⟨_,_,rfl⟩ <;> exact h
  | checkAlive alive =>
    obtain ⟨_,rfl⟩ := hs
    exact h
  | recvCand =>
    obtain ⟨_,_,_,rfl⟩ := recvCand_eq_some.mp hs.2
    exact h
  | candsDone =>
    obtain ⟨_,hs⟩ := hs
    unfold Session.candsDone at hs
    split at hs <;> cases hs
    exact h
  | event e =>
    obtain ⟨_,rfl⟩ := hs
    exact handleEvent_unconnected ha h
  | hidSent =>
    obtain ⟨_,rfl⟩ := hs
    exact h
  | pollTimeout =>
    obtain ⟨_,rfl⟩ := hs
    exact h
  | selected ok =>
    obtain ⟨_,rfl⟩ := hs
    exact h
  | _ => exact ha.elim

theorem neverReads_of_unconnected (hloop : s.webrtc.inLoop = true) (h : s.iceConnected = false) :
    NeverReads fromStr accepts Calm .recvAnswer s := by
  refine neverReads_of_kept (I := fun t => t.webrtc.inLoop = true ∧ t.iceConnected = false)
    (fun _ ht => ht.1) ?_ ⟨hloop,h⟩
  rintro t b t' ⟨ht,hconn⟩ hb hs
  refine ⟨(inLoop_step hs ht).2.resolve_right fun ⟨hleaves,_⟩ => ?_,calm_unconnected hs hb hconn⟩
  cases b with
  | checkAlive alive => exact absurd (hb.symm.trans hleaves) (by simp)
  | selected ok => exact absurd (hb.symm.trans hleaves) (by simp)
  | event e => exact absurd (hconn.symm.trans hleaves.2) (by simp)
  | pollError => exact hb
  | abort => exact hb
  | _ => exact hleaves

theorem inLoop_of_paced (h : Paced s) (hrunning : s.webrtc ≠ .ended) (htaken : s.taken.isSome = true) :
    s.webrtc.inLoop = true := by
  have hearly : ¬ (s.webrtc = .gathering ∨ s.webrtc = .waiting) := fun he => by
    rw [(h.early he).1] at htaken
    cases htaken
  rw [not_or] at hearly
  cases hphase : s.webrtc with
  | gathering => exact absurd hphase hearly.1
  | waiting => exact absurd hphase hearly.2
  | ended => exact absurd hphase hrunning
  | _ => rfl

theorem ignored_iff (h : Paced s) : Ignored fromStr accepts s ↔ Stuck s := by
  constructor
  · intro hi
    exact ⟨inLoop_of_paced h hi.running hi.consumed,hi.unconnected,hi.failed,hi.waiting⟩
  · intro hs
    refine ⟨?_,hs.unconnected,h.late hs.loop,hs.failed,hs.waiting,
      neverReads_of_unconnected hs.loop hs.unconnected⟩
    intro he
    have hloop := hs.loop
    rw [he] at hloop
    cases hloop

theorem Stuck.of_same (h : Stuck s') (hloop : s.webrtc.inLoop = true)
    (hconn : s'.iceConnected = s.iceConnected) (hfailed : s'.iceFailed = s.iceFailed)
    (hanswers : s'.answers = s.answers) : Stuck s :=
  ⟨hloop,hconn ▸ h.unconnected,hfailed ▸ h.failed,hanswers ▸ h.waiting⟩

/-- `webrtc::run` does not come back to where it waits, and ICE does not fail before the loop. -/
theorem early_step (hs : Agent.step fromStr accepts s a = some s')
    (h : s'.webrtc = .gathering ∨ s'.webrtc = .waiting) :
    (s.webrtc = .gathering ∨ s.webrtc = .waiting) ∧ s'.iceFailed = s.iceFailed := by
  by_cases hloop : s.webrtc.inLoop = true
  · rcases (inLoop_step hs hloop).2 with hin | ⟨_,he⟩
    · rcases h with h | h <;> rw [h] at hin <;> cases hin
    · rcases h with h | h <;> rw [h] at he <;> cases he
  by_cases ha : a.isSignal = true
  · obtain ⟨hphase,_,hfailed,_⟩ := signal_step hs ha
    rw [hphase] at h
    exact ⟨h,hfailed⟩
  have hs := step_eq_some.mp hs
  have outside : ∀ {phase : WebrtcPhase}, s.webrtc = phase → phase.inLoop = true →
      (s.webrtc = .gathering ∨ s.webrtc = .waiting) ∧ s'.iceFailed = s.iceFailed :=
    fun hphase hin => absurd (hphase ▸ hin) hloop
  cases a with
  | gather ok =>
    obtain ⟨hphase,rfl⟩ := hs
    refine ⟨.inl hphase,?_⟩
    unfold Session.gather
    split <;> rfl
  | recvAnswer =>
    refine ⟨.inr hs.1,?_⟩
    rcases recvAnswer_eq_some.mp hs.2 with ⟨_,_,_,rfl⟩ | ⟨_,_,rfl⟩ <;> rfl
  | checkAlive alive => exact outside hs.1 rfl
  | recvCand => exact outside hs.1 rfl
  | candsDone => exact outside hs.1 rfl
  | event e => exact outside hs.1 rfl
  | hidSent =>
    obtain ⟨⟨data,hphase⟩,_⟩ := hs
    exact outside hphase rfl
  | pollTimeout => exact outside hs.1 rfl
  | pollError => exact outside hs.1 rfl
  | selected ok => exact outside hs.1 rfl
  | abort =>
    obtain ⟨_,rfl⟩ := hs
    rcases h with h | h <;> cases h
  | _ => exact absurd rfl ha

theorem paced {peerConnected keyframe : Bool}
    (h : Run (Agent.step fromStr accepts) (.start peerConnected keyframe) as s) : Paced s := by
  have htally := tally h
  have hfailed : s.webrtc = .gathering ∨ s.webrtc = .waiting → s.iceFailed = false := by
    refine h.invariant (P := fun _ s => s.webrtc = .gathering ∨ s.webrtc = .waiting →
      s.iceFailed = false) (fun _ => rfl) ?_
    intro as s a s' _ ih hs hearly
    obtain ⟨hearly,hsame⟩ := early_step hs hearly
    rw [hsame]
    exact ih hearly
  refine ⟨fun hearly => ⟨htally.early hearly,hfailed hearly⟩,fun hloop => ?_⟩
  obtain ⟨sdp,hsdp,_⟩ := htally.late hloop
  rw [hsdp]
  rfl

theorem handleEvent_same {e : Event} (he : e ≠ .iceConnectionStateChange .disconnected)
    (h : (s.handleEvent e).iceConnected = false) :
    (s.handleEvent e).iceFailed = s.iceFailed ∧ (s.handleEvent e).answers = s.answers ∧
      (s.handleEvent e).iceConnected = s.iceConnected := by
  unfold Session.handleEvent at h ⊢
  split at h <;> first | exact ⟨rfl,rfl,rfl⟩ | cases h | exact absurd rfl he

/-- The signal task gets a session stuck only by an answer that it queues. -/
theorem Heeds.not_stuck_signal (hs : Agent.step fromStr accepts s a = some s') (ha : Heeds s a)
    (hsignal : a.isSignal = true) (h : ¬ Stuck s) : ¬ Stuck s' := by
  intro hstuck
  obtain ⟨hphase,hconn,hfailed,hanswers⟩ := signal_step hs hsignal
  have hloop : s.webrtc.inLoop = true := hphase ▸ hstuck.loop
  by_cases hsent : a = .sent
  · subst hsent
    rcases sent_eq_some.mp (step_eq_some.mp hs) with ⟨_,hsend,_⟩ | ⟨_,hsend,⟨_,rfl⟩ | ⟨_,_,_,rfl⟩⟩
    · have hc := ha (by rw [hsend]; rfl) hloop (hfailed ▸ hstuck.failed)
      rw [hconn.symm.trans hstuck.unconnected] at hc
      cases hc
    · exact h (hstuck.of_same hloop rfl rfl rfl)
    · exact h (hstuck.of_same hloop rfl rfl rfl)
  · exact h (hstuck.of_same hloop hconn hfailed (hanswers hsent))

/-- An event gets it stuck only if ICE fails. -/
theorem Heeds.not_stuck_event {e : Event} (hphase : s.webrtc = .poll) (ha : Heeds s (.event e : Action Raw))
    (h : ¬ Stuck s) : ¬ Stuck (s.handleEvent e) := by
  intro hstuck
  by_cases he : e = .iceConnectionStateChange .disconnected
  · subst he
    by_cases hc : s.iceConnected = true
    · have hloop := hstuck.loop
      rw [Session.handleEvent,if_pos hc] at hloop
      cases hloop
    · have hwaiting := hstuck.waiting
      rw [Session.handleEvent,if_neg hc] at hwaiting
      exact hc (ha rfl hwaiting)
  · obtain ⟨hfailed,hanswers,hconn⟩ := handleEvent_same he hstuck.unconnected
    exact h (hstuck.of_same (by rw [hphase]; rfl) hconn hfailed hanswers)

theorem Heeds.not_stuck (hp : Paced s) (hs : Agent.step fromStr accepts s a = some s') (ha : Heeds s a)
    (h : ¬ Stuck s) : ¬ Stuck s' := by
  by_cases hsignal : a.isSignal = true
  · exact ha.not_stuck_signal hs hsignal h
  intro hstuck
  have hs := step_eq_some.mp hs
  cases a with
  | gather ok =>
    obtain ⟨hphase,rfl⟩ := hs
    have hloop := hstuck.loop
    unfold Session.gather at hloop
    split at hloop <;> cases hloop
  | recvAnswer =>
    have hfailed := (hp.early (.inr hs.1)).2
    rcases recvAnswer_eq_some.mp hs.2 with ⟨_,_,_,rfl⟩ | ⟨_,_,rfl⟩
    · exact absurd (hfailed.symm.trans hstuck.failed) (by simp)
    · cases hstuck.loop
  | checkAlive alive =>
    obtain ⟨hphase,rfl⟩ := hs
    exact h (hstuck.of_same (by rw [hphase]; rfl) rfl rfl rfl)
  | recvCand =>
    obtain ⟨hphase,hs⟩ := hs
    obtain ⟨_,_,_,rfl⟩ := recvCand_eq_some.mp hs
    exact h (hstuck.of_same (by rw [hphase]; rfl) rfl rfl rfl)
  | candsDone =>
    obtain ⟨hphase,hs⟩ := hs
    unfold Session.candsDone at hs
    split at hs <;> cases hs
    exact h (hstuck.of_same (by rw [hphase]; rfl) rfl rfl rfl)
  | event e =>
    obtain ⟨hphase,rfl⟩ := hs
    exact ha.not_stuck_event hphase h hstuck
  | hidSent =>
    obtain ⟨⟨data,hphase⟩,rfl⟩ := hs
    exact h (hstuck.of_same (by rw [hphase]; rfl) rfl rfl rfl)
  | pollTimeout =>
    obtain ⟨hphase,rfl⟩ := hs
    exact h (hstuck.of_same (by rw [hphase]; rfl) rfl rfl rfl)
  | pollError =>
    obtain ⟨hphase,rfl⟩ := hs
    cases hstuck.loop
  | selected ok =>
    obtain ⟨hphase,rfl⟩ := hs
    exact h (hstuck.of_same (by rw [hphase]; rfl) rfl rfl rfl)
  | abort =>
    obtain ⟨_,rfl⟩ := hs
    cases hstuck.loop
  | _ => exact absurd rfl hsignal

theorem heeds_of_not_stuck (hs : Agent.step fromStr accepts s a = some s') (h : ¬ Stuck s') :
    Heeds s a := by
  have hs := step_eq_some.mp hs
  cases a with
  | event e =>
    obtain ⟨hphase,rfl⟩ := hs
    rintro rfl hwaiting
    by_contra hc
    refine h ?_
    rw [Session.handleEvent,if_neg hc]
    exact ⟨by rw [hphase]; rfl,Bool.eq_false_iff.mpr hc,rfl,hwaiting⟩
  | sent =>
    intro hsend hloop hfailed
    by_contra hc
    have hconn := Bool.eq_false_iff.mpr hc
    rcases sent_eq_some.mp hs with ⟨_,_,⟨he,_⟩ | ⟨_,_,hpush,rfl⟩⟩ | ⟨_,hphase,_⟩
    · rw [he] at hloop
      cases hloop
    · refine h ⟨hloop,hconn,hfailed,?_⟩
      rw [BoundedQueue.items_of_push? hpush]
      simp
    · rw [hphase] at hsend
      cases hsend
  | _ => trivial

end Machine

end Agent

namespace Rendezvous

open Transition

section Machine
variable {d : Deployment} {as : List Act} {s s' : World} {a : Act}

def IgnoresAnswer (d : Deployment) (_ : List Act) (s : World) : Prop :=
  Agent.Ignored fromStr (d.accepts s.session) s.agent

def HeedsAnswers (_ : List Act) (s : World) : Act → Prop
  | .agent a => Agent.Heeds s.agent a
  | _ => True

theorem ignoresAnswer_iff (h : WorldRun d as s) : IgnoresAnswer d as s ↔ Agent.Stuck s.agent := by
  obtain ⟨_,_,_,hrun⟩ := agent_run h
  exact Agent.ignored_iff (Agent.paced hrun)

theorem not_stuck_start (peerConnected keyframe : Bool) :
    ¬ Agent.Stuck (.start peerConnected keyframe : Agent.Session Answer Unit) :=
  fun h => nomatch h.loop

theorem not_stuck_step (h : WorldRun d as s) (hnot : ¬ Agent.Stuck s.agent)
    (hs : step d s a = some s') : HeedsAnswers as s a ↔ ¬ Agent.Stuck s'.agent := by
  cases a with
  | agent a =>
    obtain ⟨_,hagent⟩ := step_agent hs
    obtain ⟨_,_,_,hrun⟩ := agent_run h
    exact ⟨fun ha => ha.not_stuck (Agent.paced hrun) hagent hnot,Agent.heeds_of_not_stuck hagent⟩
  | server a =>
    rw [(step_server hs).1.agent]
    exact ⟨fun _ => hnot,fun _ => trivial⟩
  | newSession =>
    rw [step_newSession hs]
    exact ⟨fun _ => not_stuck_start _ _,fun _ => trivial⟩
  | browserRecv id =>
    obtain ⟨_,_,_,_,hagent,_⟩ := step_browserRecv hs
    rw [hagent]
    exact ⟨fun _ => hnot,fun _ => trivial⟩
  | browserSend id m =>
    rw [(step_browserSend hs).1]
    exact ⟨fun _ => hnot,fun _ => trivial⟩

/-- In no state of a run does a session ignore an answer exactly if each step of the run heeds
answers. -/
theorem answers_heeded_iff (h : WorldRun d as s) :
    Always (step d) .start (fun as s => ¬ IgnoresAnswer d as s) as ↔
      GuardedRun (step d) .start HeedsAnswers as s := by
  apply h.always_iff_guarded
  · rw [ignoresAnswer_iff .init]
    exact not_stuck_start _ _
  · intro as s a s' hg hnot hs
    rw [ignoresAnswer_iff hg.run] at hnot
    rw [ignoresAnswer_iff (hg.run.next hs)]
    exact not_stuck_step hg.run hnot hs

end Machine

/-- Two pages answer the same offer, and ICE fails for the first. -/
def secondAnswer : List Act :=
  offering 0 ++ [.server (.recv (.device 0 0) (.offer 0))] ++ visit 0 0 ++ answering 0 0 0 ++
    [.agent .recvAnswer,.agent (.checkAlive true),.agent .candsDone,
      .agent (.event (.iceConnectionStateChange .disconnected))] ++ visit 1 0 ++ answering 1 0 0

/-- Both answers go through, and the first page gets connected. -/
def connectedFirst : List Act :=
  offering 0 ++ [.server (.recv (.device 0 0) (.offer 0))] ++ visit 0 0 ++ answering 0 0 0 ++
    [.agent .recvAnswer,.agent (.checkAlive true),.agent .candsDone,.agent (.event .connected)] ++
    visit 1 0 ++ answering 1 0 0

theorem answers_heeded_iff_connected : ∃ s, WorldRun home connectedFirst.reverse s ∧
    (Always (step home) .start (fun as s => ¬ IgnoresAnswer home as s) connectedFirst.reverse ↔
      GuardedRun (step home) .start HeedsAnswers connectedFirst.reverse s) := by
  obtain ⟨s,hrun,_⟩ := exists_run_of_replay (step home) .start connectedFirst
    (fun s => decide (s.agent.answers.items = [⟨0,1⟩])) (by decide +kernel)
  exact ⟨s,hrun,answers_heeded_iff hrun⟩

/-- The answer of the second page is ignored for as long as the first page does not come back. -/
theorem second_answer_ignored : ¬ ∀ as s, WorldRun home as s → ¬ IgnoresAnswer home as s := by
  intro h
  obtain ⟨s,hrun,hs⟩ := exists_run_of_replay (step home) .start secondAnswer
    (fun s => s.agent.webrtc.inLoop && decide (s.agent.iceConnected = false ∧
      s.agent.iceFailed = true ∧ s.agent.answers.items = [⟨0,1⟩])) (by decide +kernel)
  obtain ⟨hloop,hs⟩ := Bool.and_eq_true_iff.mp hs
  obtain ⟨hconn,hfailed,hitems⟩ := of_decide_eq_true hs
  refine h _ s hrun ((ignoresAnswer_iff hrun).mpr ⟨hloop,hconn,hfailed,?_⟩)
  rw [hitems]
  simp

end Rendezvous
end AnyKvm
