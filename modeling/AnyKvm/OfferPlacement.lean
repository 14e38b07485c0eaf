import AnyKvm.AnswerPairing
import AnyKvm.HandlerLifecycle

/-! Which offers the server puts into the queues of the clients.
An offer is answered by a browser that has got it, so that before its first placement it cannot have
been answered; the cached offer is replayed whatever has become of it, but only from a device that
was in the room when the cache was read. -/
namespace AnyKvm
namespace Rendezvous

open Transition

def Placed (s s' : World) (id k : ℕ) : Prop :=
  (s'.server.send (.client id)).queue.items =
    (s.server.send (.client id)).queue.items ++ [.offer k]

instance (s s' : World) (id k : ℕ) : Decidable (Placed s s' id k) :=
  inferInstanceAs (Decidable (_ = _))

def PlacedBefore (d : Deployment) (as : List Act) (k : ℕ) : Prop :=
  ∃ as' a t t' id, a :: as' <:+ as ∧ WorldRun d as' t ∧ step d t a = some t' ∧ Placed t t' id k

def Consumed (d : Deployment) (as : List Act) (k : ℕ) : Prop :=
  ∃ as' t answer, as' <:+ as ∧ WorldRun d as' t ∧ t.agent.taken = some answer ∧ answer.offer = k

/-- A session has sent its offer over this connection, while it ran. -/
def SentOver (d : Deployment) (as : List Act) (k j : ℕ) : Prop :=
  ∃ before t, .agent (.sendOffer true) :: before <:+ as ∧ WorldRun d before t ∧ t.session = k ∧
    t.conn = .device k j

/-- An offer on its way to a client: forwarded from a connection of its session that is in the room,
or replayed by a handler that has read the cache when such a connection was in the room. -/
inductive Vouched (d : Deployment) (as : List Act) (s : World) (id k : ℕ) : Act → Prop
  | forward (j : ℕ) (sent : SentOver d as k j)
      (present : (s.server.handler (.device k j)).pc.Registered) :
      Vouched d as s id k (.server (.recv (.device k j) (.offer k)))
  | replay (j : ℕ) (before : List Act) (t : World)
      (cache : .server (.readCache (.client id)) :: before <:+ as) (run : WorldRun d before t)
      (sent : SentOver d before k j) (read : .server (.recv (.device k j) (.offer k)) ∈ before)
      (present : (t.server.handler (.device k j)).pc.Registered) :
      Vouched d as s id k (.server (.replayOffer (.client id)))

/-- Offers on their way to a page, or with it, have been placed. -/
structure Arrived (d : Deployment) (as : List Act) (s : World) : Prop where
  queues : ∀ id k, .offer k ∈ (s.server.send (.client id)).queue.items → PlacedBefore d as k
  down : ∀ id k, .offer k ∈ s.down (.client id) → PlacedBefore d as k
  received : ∀ page, ∀ k ∈ s.received page, PlacedBefore d as k

section Machine
variable {d : Deployment} {as : List Act} {s s' : World} {a : Act}

theorem PlacedBefore.suffix {as' : List Act} {k : ℕ} (h : PlacedBefore d as' k) (hsuf : as' <:+ as) :
    PlacedBefore d as k := by
  obtain ⟨bs,b,t,t',id,hbs,hrun,hs,hplaced⟩ := h
  exact ⟨bs,b,t,t',id,hbs.trans hsuf,hrun,hs,hplaced⟩

theorem PlacedBefore.cons {k : ℕ} (h : PlacedBefore d as k) (a : Act) : PlacedBefore d (a :: as) k :=
  h.suffix (List.suffix_cons a as)

theorem Arrived.step (hrun : WorldRun d as s) (h : Arrived d as s)
    (hs : Rendezvous.step d s a = some s') : Arrived d (a :: as) s' := by
  cases a with
  | server a =>
    obtain ⟨hmoves,hserver⟩ := step_server hs
    refine ⟨fun id k hm => ?_,fun id k hm => ?_,fun page k hk => ?_⟩
    · rcases SignalServer.step_queue hserver (.client id) with hq | hq | ⟨m,hq,_⟩
      · exact (h.queues id k (hq ▸ hm)).cons _
      · exact (h.queues id k (List.mem_of_mem_tail (hq ▸ hm))).cons _
      · have hmem := hm
        rw [hq,List.mem_append,List.mem_singleton] at hmem
        rcases hmem with hmem | rfl
        · exact (h.queues id k hmem).cons _
        · exact ⟨as,_,s,s',id,List.suffix_refl _,hrun,hs,hq⟩
    · rcases hmoves.down _ _ hm with hm | hm
      · exact (h.down id k hm).cons _
      · exact (h.queues id k hm).cons _
    · rw [hmoves.received] at hk
      exact (h.received page k hk).cons _
  | agent a =>
    obtain ⟨hmoves,_⟩ := step_agent hs
    refine ⟨fun id k hm => ?_,fun id k hm => ?_,fun page k hk => ?_⟩
    · exact (h.queues id k (hmoves.server ▸ hm)).cons _
    · exact (h.down id k (hmoves.down _ _ hm)).cons _
    · exact (h.received page k (hmoves.received ▸ hk)).cons _
  | newSession =>
    rw [step_newSession hs]
    exact ⟨fun id k hm => (h.queues id k hm).cons _,fun id k hm => (h.down id k hm).cons _,
      fun page k hk => (h.received page k hk).cons _⟩
  | browserRecv id =>
    obtain ⟨m,rest,hm,_,_,hserver,_,hdown,hnew,_⟩ := step_browserRecv hs
    refine ⟨fun id k hm => ?_,fun id k hm => (h.down id k (hdown _ _ hm)).cons _,fun page k hk => ?_⟩
    · exact (h.queues id k (hserver ▸ hm)).cons _
    · rcases hnew page k hk with hk | ⟨_,rfl⟩
      · exact (h.received page k hk).cons _
      · exact (h.down id k (by rw [hm]; exact List.mem_cons_self ..)).cons _
  | browserSend id m =>
    rw [(step_browserSend hs).1]
    exact ⟨fun id k hm => (h.queues id k hm).cons _,fun id k hm => (h.down id k hm).cons _,
      fun page k hk => (h.received page k hk).cons _⟩

theorem arrived (h : WorldRun d as s) : Arrived d as s := by
  refine h.invariant (P := Arrived d) ?_ ?_
  · refine ⟨?_,?_,?_⟩
    · rintro _ _ ⟨⟩
    · rintro _ _ ⟨⟩
    · rintro _ _ ⟨⟩
  · intro as s a s' hrun h hs
    exact h.step hrun hs

theorem placedBefore_of_sent {answer : Answer} (h : WorldRun d as s) (hsent : Sent as answer) :
    PlacedBefore d as answer.offer :=
  (arrived h).received _ _ ((sound h).sent answer hsent)

theorem placedBefore_of_consumed {k : ℕ} (h : Consumed d as k) : PlacedBefore d as k := by
  obtain ⟨as',t,answer,hsuf,hrun,htaken,rfl⟩ := h
  have hheld : answer ∈ t.agent.held := Agent.mem_held.mpr (.inl htaken)
  exact (placedBefore_of_sent hrun ((sound hrun).held answer hheld)).suffix hsuf

theorem SentOver.suffix {as' : List Act} {k j : ℕ} (h : SentOver d as' k j) (hsuf : as' <:+ as) :
    SentOver d as k j := by
  obtain ⟨before,t,hbefore,hrest⟩ := h
  exact ⟨before,t,hbefore.trans hsuf,hrest⟩

theorem SentOver.cons {k j : ℕ} (h : SentOver d as k j) (a : Act) : SentOver d (a :: as) k j :=
  h.suffix (List.suffix_cons a as)

theorem sentOver_of_up (h : WorldRun d as s) {k j : ℕ} {m : Wire} (hm : m ∈ s.up (.device k j)) :
    m = .offer k ∧ SentOver d as k j := by
  induction h with
  | init => cases hm
  | @next as s s' a hrun hs ih =>
    have old : m ∈ s.up (.device k j) → m = .offer k ∧ SentOver d (a :: as) k j :=
      fun hm => (ih hm).imp_right (·.cons a)
    cases a with
    | server a => exact old ((step_server hs).1.up _ m hm)
    | agent a =>
      rcases (step_agent hs).1.up _ m hm with hm | ⟨rfl,hc,rfl⟩
      · exact old hm
      · have hk : k = s.session := by
          rw [World.conn] at hc
          cases hc
          rfl
        exact ⟨by rw [hk],as,s,List.suffix_refl _,hrun,hk.symm,hc.symm⟩
    | newSession =>
      rw [step_newSession hs] at hm
      exact old hm
    | browserRecv id =>
      obtain ⟨_,_,_,_,_,_,hup,_⟩ := step_browserRecv hs
      exact old (hup ▸ hm)
    | browserSend id m' =>
      rw [(step_browserSend hs).1] at hm
      rcases mem_push hm with hm | ⟨hc,-⟩
      · exact old hm
      · cases hc

theorem sentOver_of_recv (h : WorldRun d as s) {k j : ℕ} {m : Wire}
    (hm : .server (.recv (.device k j) m) ∈ as) : m = .offer k ∧ SentOver d as k j := by
  induction h with
  | init => cases hm
  | @next as s s' a hrun hs ih =>
    rcases List.mem_cons.mp hm with rfl | hm
    · exact (sentOver_of_up hrun ((step_server hs).1.read _ m rfl)).imp_right (·.cons _)
    · exact (ih hm).imp_right (·.cons _)

theorem cache_of_cached (h : WorldRun d as s) {id : ℕ} {m : Wire}
    (hm : (s.server.handler (.client id)).cached = some m) :
    ∃ before t, .server (.readCache (.client id)) :: before <:+ as ∧ WorldRun d before t ∧
      (t.server.roomOf d.query (.client id)).offerCache = some m := by
  induction h with
  | init => cases hm
  | @next as s s' a hrun hs ih =>
    have old : (s.server.handler (.client id)).cached = some m →
        ∃ before t, .server (.readCache (.client id)) :: before <:+ a :: as ∧ WorldRun d before t ∧
          (t.server.roomOf d.query (.client id)).offerCache = some m := by
      intro hm
      obtain ⟨before,t,hsuf,hrest⟩ := ih hm
      exact ⟨before,t,hsuf.trans (List.suffix_cons _ _),hrest⟩
    rcases ha : a.server? with - | b
    · rw [server_of_step hs ha] at hm
      exact old hm
    · cases a with
      | server a =>
        obtain ⟨hkeep,hread⟩ := SignalServer.cached_step (step_server hs).2 (.client id)
        by_cases hcache : a = .readCache (.client id)
        · subst hcache
          exact ⟨as,s,List.suffix_refl _,hrun,(hread rfl).symm.trans hm⟩
        · exact old ((hkeep hcache).symm.trans hm)
      | _ => cases ha

theorem vouched_forward (h : WorldRun d as s) {c : Conn} {id k : ℕ}
    (hs : step d s (.server (.recv c (.offer k))) = some s') :
    Vouched d as s id k (.server (.recv c (.offer k))) := by
  obtain ⟨hmoves,hserver⟩ := step_server hs
  have hm := hmoves.read c _ rfl
  cases c with
  | client id' => exact absurd rfl (((sound h).upClient id' _ hm).1 k)
  | device k' j =>
    obtain ⟨hk,hsent⟩ := sentOver_of_up h hm
    cases hk
    have hen := (SignalServer.step_eq_some.mp hserver).1
    have hreading : (s.server.handler (.device k j)).pc = .reading := by
      simpa [SignalServer.enabled] using hen
    exact .forward j hsent (by rw [hreading]; decide)

theorem vouched_replay (h : WorldRun d as s) {id k : ℕ}
    (hcached : (s.server.handler (.client id)).cached = some (.offer k)) :
    Vouched d as s id k (.server (.replayOffer (.client id))) := by
  obtain ⟨before,t,hsuf,hrun,hcache⟩ := cache_of_cached h hcached
  obtain ⟨c,hread,hdev,hreg,-⟩ := SignalServer.cached_registered (server_run hrun) hcache
  rw [mem_server] at hread
  cases c with
  | client id' => cases hdev
  | device k' j =>
    obtain ⟨hk,hsent⟩ := sentOver_of_recv hrun hread
    cases hk
    exact .replay j before t hsuf hrun hsent hread hreg

/-- An offer that is put into a client's queue is that of a session begun, which has sent it, while it
ran, over a connection that was in the room when the server took it from there.  When it is put into
a queue for the first time, no page has answered it and no session has taken an answer to it. -/
theorem placed_offer {id k : ℕ} (h : WorldRun d as s) (hs : step d s a = some s')
    (hplaced : Placed s s' id k) :
    k ≤ s'.session ∧ Vouched d as s id k a ∧
    (PlacedBefore d as k ∨ (∀ answer, Sent as answer → answer.offer ≠ k) ∧ ¬ Consumed d as k) := by
  refine ⟨?_,?_,?_⟩
  · have hmem : .offer k ∈ (s'.server.send (.client id)).queue.items := by
      rw [hplaced]
      exact List.mem_append_right _ (List.mem_singleton.mpr rfl)
    exact (sound (h.next hs)).queues _ _ hmem
  · have hgrown := congrArg List.length hplaced
    rw [List.length_append,List.length_singleton] at hgrown
    rcases ha : a.server? with - | b
    · rw [server_of_step hs ha] at hgrown
      omega
    · cases a with
      | server a =>
        rcases SignalServer.step_queue (step_server hs).2 (.client id) with hq | hq | ⟨m,hq,henq⟩
        · rw [hq] at hgrown
          omega
        · rw [hq,List.length_tail] at hgrown
          omega
        · have hm : m = .offer k := by
            rw [hplaced] at hq
            exact (List.singleton_inj.mp (List.append_cancel_left hq)).symm
          subst hm
          cases henq with
          | forward c _ => exact vouched_forward h hs
          | replay hcached => exact vouched_replay h hcached
      | _ => cases ha
  · by_cases hbefore : PlacedBefore d as k
    · exact .inl hbefore
    · refine .inr ⟨fun answer hsent hk => hbefore ?_,fun hconsumed => ?_⟩
      · rw [← hk]
        exact placedBefore_of_sent h hsent
      · exact hbefore (placedBefore_of_consumed hconsumed)

end Machine

/-- A client comes to a room, up to the replay of the cached offer. -/
def arrival (id : ℕ) : List Act :=
  [.server (.connect (.client id)),.server (.getOrCreate (.client id)),.server (.set (.client id)),
    .server (.spawnPump (.client id)),.server (.readCache (.client id))]

def firstArrival : List Act :=
  offering 0 ++ [.server (.recv (.device 0 0) (.offer 0))] ++ arrival 0

/-- A second client comes after the answer of the first has been taken. -/
def secondArrival : List Act :=
  offering 0 ++ [.server (.recv (.device 0 0) (.offer 0))] ++ visit 0 0 ++ answering 0 0 0 ++
    [.agent .recvAnswer] ++ arrival 1

/-- The cached offer is placed by a replay to the client. -/
def replays (id : ℕ) (s : World) : Bool :=
  match step home s (.server (.replayOffer (.client id))) with
  | some s' => decide (Placed s s' id 0)
  | none => false

theorem exists_of_replays {id : ℕ} {s : World} (h : replays id s = true) :
    ∃ s', step home s (.server (.replayOffer (.client id))) = some s' ∧ Placed s s' id 0 := by
  unfold replays at h
  split at h
  · rename_i s' hs
    exact ⟨s',hs,of_decide_eq_true h⟩
  · cases h

theorem placed_offer_first : ∃ as s, WorldRun home as s ∧
    Vouched home as s 0 0 (.server (.replayOffer (.client 0))) ∧
    (PlacedBefore home as 0 ∨ (∀ answer, Sent as answer → answer.offer ≠ 0) ∧ ¬ Consumed home as 0) := by
  obtain ⟨s,hrun,hs⟩ := exists_run_of_replay (step home) .start firstArrival (replays 0)
    (by decide +kernel)
  obtain ⟨s',hs',hplaced⟩ := exists_of_replays hs
  exact ⟨_,s,hrun,(placed_offer hrun hs' hplaced).2⟩

/-- The session ends, and a client comes before the server has seen its connection end. -/
def arrivalAfterEnd : List Act :=
  offering 0 ++ [.server (.recv (.device 0 0) (.offer 0)),.agent (.read .streamEnded),.agent .abort,
    .newSession] ++ arrival 0

/-- An offer is replayed to a new client although its answer has been taken, and also although its
session is over. -/
theorem closed_offer_replayed :
    (¬ ∀ as s a s' id k, WorldRun home as s → step home s a = some s' → Placed s s' id k →
      ¬ Consumed home as k) ∧
    ¬ ∀ as s a s' id k, WorldRun home as s → step home s a = some s' → Placed s s' id k →
      k = s.session := by
  constructor
  · intro h
    obtain ⟨s,hrun,hs⟩ := exists_run_of_replay (step home) .start secondArrival
      (fun s => replays 1 s && decide (s.agent.taken = some ⟨0,0⟩)) (by decide +kernel)
    obtain ⟨hreplays,htaken⟩ := Bool.and_eq_true_iff.mp hs
    obtain ⟨s',hs',hplaced⟩ := exists_of_replays hreplays
    exact h _ s _ s' 1 0 hrun hs' hplaced
      ⟨_,s,⟨0,0⟩,List.suffix_refl _,hrun,of_decide_eq_true htaken,rfl⟩
  · intro h
    obtain ⟨s,hrun,hs⟩ := exists_run_of_replay (step home) .start arrivalAfterEnd
      (fun s => replays 0 s && decide (s.session = 1)) (by decide +kernel)
    obtain ⟨hreplays,hsession⟩ := Bool.and_eq_true_iff.mp hs
    obtain ⟨s',hs',hplaced⟩ := exists_of_replays hreplays
    exact absurd ((h _ s _ s' 0 0 hrun hs' hplaced).trans (of_decide_eq_true hsession)) (by decide)

end Rendezvous
end AnyKvm
