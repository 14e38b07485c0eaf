import AnyKvm.Rendezvous

/-! Which offer the answer belongs to that a session takes.
Messages carry no session, so an answer that is still on its way when the agent starts a new session
goes to whichever device connection is in the slot by then. -/
namespace AnyKvm
namespace Rendezvous

open Transition
open SignalServer (Queues Caches)

def Sent (as : List Act) (answer : Answer) : Prop := ∃ id, .browserSend id (.answer answer) ∈ as

/-- An offer is that of a session begun, and an answer has been sent by a browser. -/
def Genuine (as : List Act) (s : World) : Wire → Prop
  | .offer k => k ≤ s.session
  | .answer answer => Sent as answer
  | .candidate => True

/-- Where messages are, and what they may be there. -/
structure Sound (as : List Act) (s : World) : Prop where
  upDevice : ∀ k n, ∀ m ∈ s.up (.device k n), m = .offer k ∧ k ≤ s.session
  upClient : ∀ id, ∀ m ∈ s.up (.client id), (∀ k, m ≠ .offer k) ∧ Genuine as s m
  queues : Queues (fun _ m => Genuine as s m) s.server
  down : ∀ c, ∀ m ∈ s.down c, Genuine as s m
  caches : Caches (fun m => ∃ k, m = .offer k ∧ k ≤ s.session) s.server
  received : ∀ page, ∀ k ∈ s.received page, k ≤ s.session
  sent : ∀ answer, Sent as answer → answer.offer ∈ s.received answer.page
  held : ∀ answer ∈ s.agent.held, Sent as answer

/-- The server does not forward an answer to a device connection of a later session. -/
def NoLateForward (d : Deployment) (_ : List Act) (s : World) : Act → Prop
  | .server (.recv c (.answer answer)) => ∀ k n,
      (s.server.roomOf d.query c).slot (SignalServer.Room.peerOf (SignalServer.role d.query c)) =
        some (.device k n) → k ≤ answer.offer
  | _ => True

section Machine
variable {d : Deployment} {as : List Act} {s s' : World} {a : Act}

theorem Sent.cons {answer : Answer} (h : Sent as answer) (a : Act) : Sent (a :: as) answer :=
  h.imp fun _ hid => List.mem_cons_of_mem a hid

theorem sent_cons {answer : Answer} :
    Sent (a :: as) answer ↔ (∃ id, a = .browserSend id (.answer answer)) ∨ Sent as answer := by
  simp [Sent,List.mem_cons,exists_or,@eq_comm _ a]

theorem sent_of_cons {answer : Answer} (h : Sent (a :: as) answer)
    (hne : ∀ id, a ≠ .browserSend id (.answer answer)) : Sent as answer :=
  (sent_cons.mp h).resolve_left fun ⟨id,ha⟩ => hne id ha

theorem Genuine.next {m : Wire} (h : Genuine as s m) (a : Act) (hle : s.session ≤ s'.session) :
    Genuine (a :: as) s' m := by
  cases m with
  | offer k => exact Nat.le_trans h hle
  | answer answer => exact Sent.cons h a
  | candidate => trivial

theorem Sound.server {a : SignalServer.Action Conn Wire} (h : Sound as s)
    (hs : step d s (.server a) = some s') : Sound (.server a :: as) s' := by
  obtain ⟨hmoves,hserver⟩ := step_server hs
  have hgenuine : ∀ m, Genuine as s m → Genuine (.server a :: as) s' m :=
    fun m hm => hm.next _ hmoves.session.ge
  have hread : ∀ c m, a = .recv c m → Genuine as s m := by
    intro c m ha
    have hm := hmoves.read c m ha
    cases c with
    | device k n =>
      obtain ⟨rfl,hk⟩ := h.upDevice k n m hm
      exact hk
    | client id => exact (h.upClient id m hm).2
  refine ⟨?_,?_,?_,?_,?_,?_,?_,?_⟩
  · intro k n m hm
    rw [hmoves.session]
    exact h.upDevice k n m (hmoves.up _ m hm)
  · intro id m hm
    obtain ⟨hne,hg⟩ := h.upClient id m (hmoves.up _ m hm)
    exact ⟨hne,hgenuine m hg⟩
  · refine (h.queues.mono fun _ => hgenuine).step hserver ?_
    intro c m henq
    apply hgenuine
    cases henq with
    | forward e _ => exact hread e m rfl
    | replay hcached =>
      obtain ⟨k,rfl,hk⟩ := h.caches.handler c m hcached
      exact hk
  · intro c m hm
    apply hgenuine
    rcases hmoves.down c m hm with hm | hm
    · exact h.down c m hm
    · exact h.queues c m hm
  · rw [hmoves.session]
    refine h.caches.step hserver ?_
    intro c m ha hrole hoffer
    have hm := hmoves.read c m ha
    cases c with
    | device k n =>
      obtain ⟨rfl,hk⟩ := h.upDevice k n m hm
      exact ⟨k,rfl,hk⟩
    | client id => cases hrole
  · rw [hmoves.received,hmoves.session]
    exact h.received
  · intro answer hsent
    rw [hmoves.received]
    exact h.sent answer (sent_of_cons hsent (by simp))
  · intro answer hheld
    rw [hmoves.agent] at hheld
    exact (h.held answer hheld).cons _

theorem Sound.agent {a : Agent.Action Wire} (h : Sound as s)
    (hs : step d s (.agent a) = some s') : Sound (.agent a :: as) s' := by
  obtain ⟨hmoves,hagent⟩ := step_agent hs
  have hgenuine : ∀ m, Genuine as s m → Genuine (.agent a :: as) s' m :=
    fun m hm => hm.next _ hmoves.session.ge
  refine ⟨?_,?_,?_,?_,?_,?_,?_,?_⟩
  · intro k n m hm
    rw [hmoves.session]
    rcases hmoves.up _ m hm with hm | ⟨-,hc,rfl⟩
    · exact h.upDevice k n m hm
    · cases hc
      exact ⟨rfl,Nat.le_refl _⟩
  · intro id m hm
    rcases hmoves.up _ m hm with hm | ⟨-,hc,_⟩
    · obtain ⟨hne,hg⟩ := h.upClient id m hm
      exact ⟨hne,hgenuine m hg⟩
    · cases hc
  · rw [hmoves.server]
    exact h.queues.mono fun _ => hgenuine
  · exact fun c m hm => hgenuine m (h.down c m (hmoves.down c m hm))
  · rw [hmoves.server,hmoves.session]
    exact h.caches
  · rw [hmoves.received,hmoves.session]
    exact h.received
  · intro answer hsent
    rw [hmoves.received]
    exact h.sent answer (sent_of_cons hsent (by simp))
  · intro answer hheld
    rcases Agent.held_step hagent hheld with hheld | ⟨m,rfl,hm⟩
    · exact (h.held answer hheld).cons _
    · have hdown := h.down _ m (hmoves.read m rfl)
      cases m with
      | offer k => cases hm
      | candidate => cases hm
      | answer answer' =>
        cases hm
        exact Sent.cons hdown _

theorem held_start (peerConnected keyframe : Bool) :
    (Agent.Session.start peerConnected keyframe : Agent.Session Answer Unit).held = [] := rfl

theorem Sound.newSession (h : Sound as s) (hs : step d s .newSession = some s') :
    Sound (.newSession :: as) s' := by
  have hs' := step_newSession hs
  have hgenuine : ∀ m, Genuine as s m → Genuine (.newSession :: as) s' m :=
    fun m hm => hm.next _ (by rw [hs']; exact Nat.le_succ _)
  subst hs'
  refine ⟨?_,?_,h.queues.mono fun _ => hgenuine,fun c m hm => hgenuine m (h.down c m hm),?_,?_,?_,?_⟩
  · intro k n m hm
    obtain ⟨rfl,hk⟩ := h.upDevice k n m hm
    exact ⟨rfl,Nat.le_succ_of_le hk⟩
  · intro id m hm
    obtain ⟨hne,hg⟩ := h.upClient id m hm
    exact ⟨hne,hgenuine m hg⟩
  · exact h.caches.mono fun m hm => hm.imp fun k hk => ⟨hk.1,Nat.le_succ_of_le hk.2⟩
  · exact fun page k hk => Nat.le_succ_of_le (h.received page k hk)
  · intro answer hsent
    exact h.sent answer (sent_of_cons hsent (by simp))
  · intro answer hheld
    rw [held_start] at hheld
    cases hheld

theorem Sound.browserRecv {id : ℕ} (h : Sound as s) (hs : step d s (.browserRecv id) = some s') :
    Sound (.browserRecv id :: as) s' := by
  obtain ⟨m,rest,hm,hsession,hagent,hserver,hup,hdown,hnew,hold⟩ := step_browserRecv hs
  have hgenuine : ∀ m, Genuine as s m → Genuine (.browserRecv id :: as) s' m :=
    fun m hm => hm.next _ hsession.ge
  refine ⟨?_,?_,?_,fun c m hm => hgenuine m (h.down c m (hdown c m hm)),?_,?_,?_,?_⟩
  · rw [hup,hsession]
    exact h.upDevice
  · intro id' m hm
    rw [hup] at hm
    obtain ⟨hne,hg⟩ := h.upClient id' m hm
    exact ⟨hne,hgenuine m hg⟩
  · rw [hserver]
    exact h.queues.mono fun _ => hgenuine
  · rw [hserver,hsession]
    exact h.caches
  · intro page k hk
    rw [hsession]
    rcases hnew page k hk with hk | ⟨_,rfl⟩
    · exact h.received page k hk
    · exact h.down (.client id) (.offer k) (by rw [hm]; exact List.mem_cons_self ..)
  · intro answer hsent
    exact hold _ _ (h.sent answer (sent_of_cons hsent (by simp)))
  · intro answer hheld
    rw [hagent] at hheld
    exact (h.held answer hheld).cons _

theorem Sound.browserSend {id : ℕ} {m : Wire} (h : Sound as s)
    (hs : step d s (.browserSend id m) = some s') : Sound (.browserSend id m :: as) s' := by
  obtain ⟨rfl,hne,hoffer⟩ := step_browserSend hs
  have hgenuine : ∀ m', Genuine as s m' →
      Genuine (.browserSend id m :: as) (s.push (.client id) m) m' :=
    fun m' hm' => hm'.next _ (Nat.le_refl _)
  have hm : Genuine (.browserSend id m :: as) (s.push (.client id) m) m := by
    cases m with
    | offer k => exact absurd rfl (hne k)
    | answer answer => exact ⟨id,List.mem_cons_self ..⟩
    | candidate => trivial
  refine ⟨?_,?_,h.queues.mono fun _ => hgenuine,fun c m' hm' => hgenuine m' (h.down c m' hm'),
    h.caches,h.received,?_,fun answer hheld => (h.held answer hheld).cons _⟩
  · intro k n m' hm'
    rcases mem_push hm' with hm' | ⟨hc,_⟩
    · exact h.upDevice k n m' hm'
    · cases hc
  · intro id' m' hm'
    rcases mem_push hm' with hm' | ⟨_,rfl⟩
    · obtain ⟨hne',hg⟩ := h.upClient id' m' hm'
      exact ⟨hne',hgenuine m' hg⟩
    · exact ⟨hne,hm⟩
  · intro answer hsent
    rcases sent_cons.mp hsent with ⟨id',ha⟩ | hsent
    · cases ha
      exact hoffer answer rfl
    · exact h.sent answer hsent

theorem sound (h : WorldRun d as s) : Sound as s := by
  refine h.invariant (P := Sound) ?_ ?_
  · refine ⟨?_,?_,SignalServer.queues_start,?_,SignalServer.caches_start,?_,?_,?_⟩
    · rintro _ _ _ ⟨⟩
    · rintro _ _ ⟨⟩
    · rintro _ _ ⟨⟩
    · rintro _ _ ⟨⟩
    · rintro _ ⟨_,⟨⟩⟩
    · intro answer hheld
      cases hheld
  · intro as s a s' _ h hs
    cases a with
    | server a => exact h.server hs
    | agent a => exact h.agent hs
    | newSession => exact h.newSession hs
    | browserRecv id => exact h.browserRecv hs
    | browserSend id m => exact h.browserSend hs

/-- No answer to an earlier session's offer is on its way to a later session, or in its hands. -/
structure OnTime (s : World) : Prop where
  queues : Queues (fun c m => ∀ k n answer, c = .device k n → m = .answer answer → k ≤ answer.offer)
    s.server
  down : ∀ k n answer, .answer answer ∈ s.down (.device k n) → k ≤ answer.offer
  held : ∀ answer ∈ s.agent.held, s.session ≤ answer.offer

theorem OnTime.step (hsound : Sound as s) (h : OnTime s) (hc : NoLateForward d as s a)
    (hs : Rendezvous.step d s a = some s') : OnTime s' := by
  cases a with
  | server a =>
    obtain ⟨hmoves,hserver⟩ := step_server hs
    refine ⟨h.queues.step hserver ?_,?_,?_⟩
    · rintro _ _ henq k n answer rfl rfl
      cases henq with
      | forward e hslot => exact hc k n hslot
      | replay hcached =>
        obtain ⟨k',hk',_⟩ := hsound.caches.handler _ _ hcached
        cases hk'
    · intro k n answer hm
      rcases hmoves.down _ _ hm with hm | hm
      · exact h.down k n answer hm
      · exact h.queues _ _ hm k n answer rfl rfl
    · rw [hmoves.agent,hmoves.session]
      exact h.held
  | agent a =>
    obtain ⟨hmoves,hagent⟩ := step_agent hs
    refine ⟨by rw [hmoves.server]; exact h.queues,?_,?_⟩
    · intro k n answer hm
      exact h.down k n answer (hmoves.down _ _ hm)
    · intro answer hheld
      rw [hmoves.session]
      rcases Agent.held_step hagent hheld with hheld | ⟨m,rfl,hm⟩
      · exact h.held answer hheld
      · have hdown := hmoves.read m rfl
        cases m with
        | offer k => cases hm
        | candidate => cases hm
        | answer answer' =>
          cases hm
          exact h.down _ _ _ hdown
  | newSession =>
    rw [step_newSession hs]
    refine ⟨h.queues,h.down,?_⟩
    intro answer hheld
    cases hheld
  | browserRecv id =>
    obtain ⟨_,_,_,hsession,hagent,hserver,_,hdown,_⟩ := step_browserRecv hs
    refine ⟨by rw [hserver]; exact h.queues,fun k n answer hm => h.down k n answer (hdown _ _ hm),?_⟩
    rw [hagent,hsession]
    exact h.held
  | browserSend id m =>
    rw [(step_browserSend hs).1]
    exact ⟨h.queues,h.down,h.held⟩

theorem onTime (h : GuardedRun (step d) .start (NoLateForward d) as s) : OnTime s := by
  refine h.invariant (P := fun _ s => OnTime s) ?_ ?_
  · refine ⟨SignalServer.queues_start,?_,?_⟩
    · rintro _ _ _ ⟨⟩
    · intro answer hheld
      cases hheld
  · intro as s a s' hrun h hc hs
    exact h.step (sound hrun.run) hc hs

/-- The answer that a session passes to `accept_answer` has been sent by a page that had the offer it
answers, and that offer is not of a later session; it is the session's own in every run in which no
answer is forwarded to a device connection of a later session. -/
theorem taken_answer {answer : Answer} (h : WorldRun d as s) (htaken : s.agent.taken = some answer) :
    (Sent as answer ∧ answer.offer ∈ s.received answer.page ∧ answer.offer ≤ s.session) ∧
    (GuardedRun (step d) .start (NoLateForward d) as s → answer.offer = s.session) := by
  have hsound := sound h
  have hheld : answer ∈ s.agent.held := Agent.mem_held.mpr (.inl htaken)
  have hsent := hsound.held answer hheld
  have hreceived := hsound.sent answer hsent
  have hle := hsound.received _ _ hreceived
  refine ⟨⟨hsent,hreceived,hle⟩,fun hguarded => ?_⟩
  exact Nat.le_antisymm hle ((onTime hguarded).held answer hheld)

end Machine

/-- The page answers the first session, which is over before the answer arrives. -/
def lateAnswer : List Act :=
  offering 0 ++ [.server (.recv (.device 0 0) (.offer 0))] ++ visit 0 0 ++
    [.agent (.read .streamEnded),.agent .abort,.newSession] ++ offering 1 ++ answering 0 0 1 ++
    [.agent .recvAnswer]

theorem taken_answer_late : ∃ as s, WorldRun home as s ∧ s.agent.taken = some ⟨0,0⟩ ∧ s.session = 1 ∧
    Sent as ⟨0,0⟩ ∧ 0 ∈ s.received 0 ∧ ¬ GuardedRun (step home) .start (NoLateForward home) as s := by
  obtain ⟨s,hrun,hs⟩ := exists_run_of_replay (step home) .start lateAnswer
    (fun s => decide (s.agent.taken = some ⟨0,0⟩ ∧ s.session = 1)) (by decide +kernel)
  obtain ⟨htaken,hsession⟩ := of_decide_eq_true hs
  obtain ⟨⟨hsent,hreceived,_⟩,hown⟩ := taken_answer hrun htaken
  refine ⟨_,s,hrun,htaken,hsession,hsent,hreceived,fun hguarded => ?_⟩
  have h := hown hguarded
  rw [hsession] at h
  cases h

/-- A session can take an answer to the offer of the session before it. -/
theorem late_answer_taken :
    ¬ ∀ as s, WorldRun home as s → ∀ answer, s.agent.taken = some answer → answer.offer = s.session := by
  intro h
  obtain ⟨s,hrun,hs⟩ := exists_run_of_replay (step home) .start lateAnswer
    (fun s => decide (s.agent.taken = some ⟨0,0⟩ ∧ s.session = 1)) (by decide +kernel)
  obtain ⟨htaken,hsession⟩ := of_decide_eq_true hs
  have hown := h _ s hrun _ htaken
  rw [hsession] at hown
  cases hown

end Rendezvous
end AnyKvm
