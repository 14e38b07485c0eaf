import AnyKvm.SignalServer

/-! Where the messages in the signalling server come from.
A queue grows by what a handler of the room has read or by the cached offer, and the caches hold
offers that were read from devices. -/
namespace AnyKvm
namespace SignalServer

open Transition

section Machine
variable {C Msg : Type*} [DecidableEq C] {query : C → Query} {unmarshal : Msg → Option SignalMsg}
variable {s s' : State C Msg} {a : Action C Msg} {Q : C → Msg → Prop} {P : Msg → Prop}

inductive Enqueues (query : C → Query) (s : State C Msg) (c : C) (msg : Msg) : Action C Msg → Prop
  | forward (d : C) (h : (s.roomOf query d).slot (Room.peerOf (role query d)) = some c) :
      Enqueues query s c msg (.recv d msg)
  | replay (h : (s.handler c).cached = some msg) : Enqueues query s c msg (.replayOffer c)

/-- A property of every queued message. -/
def Queues (Q : C → Msg → Prop) (s : State C Msg) : Prop :=
  ∀ c, ∀ msg ∈ (s.send c).queue.items, Q c msg

/-- A property of every cached offer, in a room or in the hands of a handler. -/
structure Caches (P : Msg → Prop) (s : State C Msg) : Prop where
  room : ∀ id n offer, (s.heap id n).offerCache = some offer → P offer
  handler : ∀ c offer, (s.handler c).cached = some offer → P offer

section Properties
omit [DecidableEq C]

theorem queues_start : Queues Q (State.start : State C Msg) := by
  intro c msg h
  cases h

theorem caches_start : Caches P (State.start : State C Msg) :=
  ⟨by rintro _ _ _ ⟨⟩,by rintro _ _ ⟨⟩⟩

theorem Queues.mono {Q' : C → Msg → Prop} (h : Queues Q s) (hQ : ∀ c msg, Q c msg → Q' c msg) :
    Queues Q' s :=
  fun c msg hmem => hQ c msg (h c msg hmem)

theorem Caches.mono {P' : Msg → Prop} (h : Caches P s) (hP : ∀ msg, P msg → P' msg) : Caches P' s :=
  ⟨fun id n offer ho => hP offer (h.room id n offer ho),fun c offer ho => hP offer (h.handler c offer ho)⟩

end Properties

theorem trySend_queue (c d : C) (msg : Msg) :
    ((s.trySend d msg).send c).queue.items = (s.send c).queue.items ∨
      c = d ∧ ((s.trySend d msg).send c).queue.items = (s.send c).queue.items ++ [msg] := by
  unfold State.trySend
  split
  · exact .inl rfl
  · split
    · exact .inl rfl
    · rename_i q hpush
      by_cases hc : c = d
      · subst hc
        refine .inr ⟨rfl,?_⟩
        simpa [State.setSend] using BoundedQueue.items_of_push? hpush
      · left
        simp [State.setSend,hc]

omit [DecidableEq C] in
theorem roomOf_slot_cacheOffer (c : C) (raw : Msg) (ρ : Role) :
    ((s.cacheOffer query unmarshal c raw).roomOf query c).slot ρ = (s.roomOf query c).slot ρ := by
  unfold State.cacheOffer
  split
  · rw [State.roomOf,updateRoomOf_heap]
    simp only [updateRoomOf_handler,and_self,if_true]
    cases ρ <;> rfl
  · rfl

/-- A step leaves a queue alone, takes its oldest message or appends a message to it. -/
theorem step_queue (h : step query unmarshal s a = some s') (c : C) :
    (s'.send c).queue.items = (s.send c).queue.items ∨
    (s'.send c).queue.items = (s.send c).queue.items.tail ∨
    ∃ msg, (s'.send c).queue.items = (s.send c).queue.items ++ [msg] ∧ Enqueues query s c msg a := by
  obtain ⟨_,rfl⟩ := step_eq_some.mp h
  cases a with
  | recv d raw =>
    simp only [perform,State.recv]
    split
    · exact .inl rfl
    · unfold State.forward State.deliver
      split
      · rw [cacheOffer_send]
        exact .inl rfl
      · rename_i target hslot
        rcases trySend_queue (s := s.cacheOffer query unmarshal d raw) c target raw with hq | ⟨rfl,hq⟩
        · rw [hq,cacheOffer_send]
          exact .inl rfl
        · rw [hq,cacheOffer_send]
          exact .inr (.inr ⟨raw,rfl,.forward d (roomOf_slot_cacheOffer d raw _ ▸ hslot)⟩)
  | replayOffer d =>
    simp only [perform,goto_send,State.replayOffer]
    split
    · exact .inl rfl
    · rename_i offer hcached
      rcases trySend_queue (s := s) c d offer with hq | ⟨rfl,hq⟩
      · exact .inl hq
      · exact .inr (.inr ⟨offer,hq,.replay hcached⟩)
  | pump d =>
    by_cases hc : c = d
    · subst hc
      right; left
      simp [perform,State.setSend]
    · left
      simp [perform,State.setSend,hc]
  | pumpFail d =>
    by_cases hc : c = d
    · subst hc
      right; left
      simp [perform,State.setSend]
    · left
      simp [perform,State.setSend,hc]
  | closeSend d =>
    left
    simp only [perform,goto_send,State.closeSend]
    split
    · rfl
    · by_cases hc : c = d
      · subst hc
        simp [State.setSend]
      · simp [State.setSend,hc]
  | getOrCreate d =>
    left
    cases hroom : s.rooms (roomID query d) <;> simp [perform,State.getOrCreate,State.createRoom,hroom]
  | tryDelete d =>
    left
    simp [perform]
  | _ => exact .inl rfl

theorem Queues.step (h : Queues Q s) (hs : SignalServer.step query unmarshal s a = some s')
    (hnew : ∀ c msg, Enqueues query s c msg a → Q c msg) : Queues Q s' := by
  intro c msg hmem
  rcases step_queue hs c with hq | hq | ⟨msg',hq,henq⟩
  · exact h c msg (hq ▸ hmem)
  · exact h c msg (List.mem_of_mem_tail (hq ▸ hmem))
  · rw [hq] at hmem
    rcases List.mem_append.mp hmem with hmem | hmem
    · exact h c msg hmem
    · rw [List.mem_singleton.mp hmem]
      exact hnew c msg' henq

theorem cached_step (h : SignalServer.step query unmarshal s a = some s') (c : C) :
    (a ≠ .readCache c → (s'.handler c).cached = (s.handler c).cached) ∧
      (a = .readCache c → (s'.handler c).cached = (s.roomOf query c).offerCache) := by
  by_cases hc : c = a.actor
  · subst hc
    obtain ⟨_,rfl⟩ := step_eq_some.mp h
    cases a with
    | readCache d => exact ⟨fun hne => absurd rfl hne,fun _ => by simp [perform,Action.actor]⟩
    | _ => exact ⟨fun _ => by simp [perform,Action.actor,getOrCreate_handler],fun he => by cases he⟩
  · rw [step_handler_ne h hc]
    exact ⟨fun _ => rfl,fun he => absurd (by rw [he]; rfl) hc⟩

theorem step_cached (h : SignalServer.step query unmarshal s a = some s') (c : C) :
    (s'.handler c).cached = (s.handler c).cached ∨
    (s'.handler c).cached = (s.roomOf query c).offerCache := by
  by_cases hread : a = .readCache c
  · exact .inr ((cached_step h c).2 hread)
  · exact .inl ((cached_step h c).1 hread)

theorem Caches.step (h : Caches P s) (hs : SignalServer.step query unmarshal s a = some s')
    (hnew : ∀ c raw, a = .recv c raw → role query c = .device → isOffer unmarshal raw = true → P raw) :
    Caches P s' := by
  constructor
  · intro id n offer ho
    rw [step_offerCache hs id n] at ho
    cases a with
    | getOrCreate c =>
      simp only at ho
      split at ho
      · cases ho
      · exact h.room id n offer ho
    | recv c raw =>
      simp only at ho
      split at ho
      · rename_i hc
        cases ho
        exact hnew c _ rfl hc.1.1 hc.1.2
      · exact h.room id n offer ho
    | clear c =>
      simp only at ho
      split at ho
      · cases ho
      · exact h.room id n offer ho
    | _ => exact h.room id n offer ho
  · intro c offer ho
    rcases step_cached hs c with hc | hc
    · exact h.handler c offer (hc ▸ ho)
    · exact h.room _ _ offer (hc ▸ ho)

end Machine

end SignalServer
end AnyKvm
