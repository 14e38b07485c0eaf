import AnyKvm.SignalTraffic
import AnyKvm.SlotOwnership

/-! Sends on the channels of the signalling server, and when a channel is closed.
A handler empties its slot before it closes its channel, and a slot only ever holds a connection
that has not yet run its cleanup, so nobody sends on a closed channel. -/
namespace AnyKvm
namespace SignalServer

open Transition

section Machine
variable {C Msg : Type*} [DecidableEq C] {query : C → Query} {unmarshal : Msg → Option SignalMsg}
variable {as : List (Action C Msg)} {s s' : State C Msg} {a : Action C Msg}

def sends (query : C → Query) (unmarshal : Msg → Option SignalMsg) (s : State C Msg) :
    Action C Msg → Option (C × Msg)
  | .recv c raw => match unmarshal raw with
    | none => none
    | some _ => ((s.roomOf query c).slot (Room.peerOf (role query c))).map fun target => (target,raw)
  | .replayOffer c => (s.handler c).cached.map fun offer => (c,offer)
  | _ => none

/-- The channel takes one more message. -/
def SendChan.takes (ch : SendChan Msg) : Bool := !ch.closed && !ch.queue.isFull

def enqueued (query : C → Query) (unmarshal : Msg → Option SignalMsg) (s : State C Msg)
    (a : Action C Msg) (c : C) : Option Msg :=
  (sends query unmarshal s a).bind fun send =>
    if send.1 = c ∧ (s.send c).takes = true then some send.2 else none

/-- The action is one of the write pump of a connection that takes the oldest message. -/
def Action.pops (c : C) : Action C Msg → Bool
  | .pump d | .pumpFail d => d = c
  | _ => false

theorem enqueued_eq_some {msg : Msg} {c : C} :
    enqueued query unmarshal s a c = some msg ↔
      sends query unmarshal s a = some (c,msg) ∧ (s.send c).takes = true := by
  unfold enqueued
  cases sends query unmarshal s a with
  | none => simp
  | some send =>
    obtain ⟨d,msg'⟩ := send
    simp only [Option.bind_some,Option.some.injEq,Prod.mk.injEq]
    by_cases hd : d = c ∧ (s.send c).takes = true
    · simp [hd]
    · rw [if_neg hd]
      simp only [reduceCtorEq,false_iff]
      rintro ⟨⟨rfl,_⟩,htakes⟩
      exact hd ⟨rfl,htakes⟩

def closes (c : C) : List (Action C Msg) → ℕ
  | [] => 0
  | .closeSend d :: as => closes c as + if d = c then 1 else 0
  | _ :: as => closes c as

theorem takes_iff {ch : SendChan Msg} :
    ch.takes = true ↔ ch.closed = false ∧ ch.queue.items.length < 64 := by
  have hle := ch.queue.length_le
  simp only [SendChan.takes,Bool.and_eq_true,Bool.not_eq_true',BoundedQueue.isFull,decide_eq_false_iff_not]
  exact and_congr_right fun _ => Nat.not_le

theorem trySend_items (c d : C) (msg : Msg) :
    ((s.trySend d msg).send c).queue.items =
      (s.send c).queue.items ++ if d = c ∧ (s.send c).takes = true then [msg] else [] := by
  unfold State.trySend
  split
  · rename_i hclosed
    rw [if_neg,List.append_nil]
    rintro ⟨rfl,htakes⟩
    rw [(takes_iff.mp htakes).1] at hclosed
    cases hclosed
  · rename_i hopen
    split
    · rename_i hpush
      rw [if_neg,List.append_nil]
      rintro ⟨rfl,htakes⟩
      simp [BoundedQueue.push?,(takes_iff.mp htakes).2] at hpush
    · rename_i q hpush
      obtain ⟨hlt,hitems⟩ := BoundedQueue.push?_eq_some.mp hpush
      by_cases hd : d = c
      · subst hd
        have htakes : (s.send d).takes = true := takes_iff.mpr ⟨by simpa using hopen,hlt⟩
        simp [State.setSend,hitems,htakes]
      · simp [State.setSend,Function.update_of_ne (Ne.symm hd),hd]

theorem trySend_closed (c d : C) (msg : Msg) : ((s.trySend d msg).send c).closed = (s.send c).closed := by
  unfold State.trySend
  split
  · rfl
  · split
    · rfl
    · by_cases hd : c = d
      · subst hd
        simp [State.setSend]
      · simp [State.setSend,hd]

theorem recv_send (c : C) (raw : Msg) :
    (s.recv query unmarshal c raw).send = match sends query unmarshal s (.recv c raw) with
      | some (target,msg) => (s.trySend target msg).send
      | none => s.send := by
  simp only [State.recv,sends]
  cases unmarshal raw with
  | none => rfl
  | some m =>
    simp only [State.forward,State.deliver,roomOf_slot_cacheOffer]
    cases (s.roomOf query c).slot (Room.peerOf (role query c)) with
    | none => exact cacheOffer_send query unmarshal s c raw
    | some target =>
      have hsend := cacheOffer_send query unmarshal s c raw
      simp only [Option.map_some,State.trySend,hsend]
      split
      · rfl
      · split
        · exact hsend
        · simp [State.setSend]

theorem replayOffer_send (query : C → Query) (unmarshal : Msg → Option SignalMsg) (c : C) :
    (s.replayOffer c).send = match sends query unmarshal s (.replayOffer c) with
      | some (target,msg) => (s.trySend target msg).send
      | none => s.send := by
  simp only [State.replayOffer,sends]
  cases (s.handler c).cached <;> rfl

theorem step_items (h : step query unmarshal s a = some s') (c : C) :
    (s'.send c).queue.items =
      (if a.pops c then (s.send c).queue.items.tail else (s.send c).queue.items) ++
        (enqueued query unmarshal s a c).toList := by
  obtain ⟨_,rfl⟩ := step_eq_some.mp h
  have hsent : ∀ t : State C Msg, t.send = (match sends query unmarshal s a with
      | some (target,msg) => (s.trySend target msg).send
      | none => s.send) → (t.send c).queue.items =
        (s.send c).queue.items ++ (enqueued query unmarshal s a c).toList := by
    intro t ht
    rw [ht,enqueued]
    cases sends query unmarshal s a with
    | none => simp
    | some send =>
      simp only [Option.bind_some,trySend_items]
      split <;> simp
  cases a with
  | recv d raw => exact hsent _ (recv_send d raw)
  | replayOffer d => exact hsent _ (replayOffer_send query unmarshal d)
  | pump d =>
    by_cases hc : c = d
    · subst hc
      simp [perform,State.setSend,Action.pops,enqueued,sends]
    · simp [perform,State.setSend,Action.pops,enqueued,sends,hc,Ne.symm hc]
  | pumpFail d =>
    by_cases hc : c = d
    · subst hc
      simp [perform,State.setSend,Action.pops,enqueued,sends]
    · simp [perform,State.setSend,Action.pops,enqueued,sends,hc,Ne.symm hc]
  | closeSend d =>
    simp only [perform,goto_send,State.closeSend,Action.pops,enqueued,sends]
    split
    · simp
    · by_cases hc : c = d
      · subst hc
        simp [State.setSend]
      · simp [State.setSend,hc]
  | getOrCreate d =>
    cases hroom : s.rooms (roomID query d) <;>
      simp [perform,State.getOrCreate,State.createRoom,hroom,Action.pops,enqueued,sends]
  | _ => simp [perform,Action.pops,enqueued,sends]

theorem step_closed (h : step query unmarshal s a = some s') (c : C) :
    (s'.send c).closed = true ↔ (s.send c).closed = true ∨ a = .closeSend c := by
  obtain ⟨_,rfl⟩ := step_eq_some.mp h
  cases a with
  | recv d raw =>
    simp only [perform,recv_send]
    cases sends query unmarshal s (.recv d raw) <;> simp [trySend_closed]
  | replayOffer d =>
    simp only [perform,goto_send,replayOffer_send query unmarshal d]
    cases sends query unmarshal s (.replayOffer d) <;> simp [trySend_closed]
  | closeSend d =>
    simp only [perform,goto_send,State.closeSend,Action.closeSend.injEq]
    by_cases hc : d = c
    · subst hc
      split <;> simp_all [State.setSend]
    · split <;> simp [State.setSend,Ne.symm hc,hc]
  | pump d => by_cases hc : c = d <;> simp [perform,State.setSend,hc]
  | pumpFail d => by_cases hc : c = d <;> simp [perform,State.setSend,hc]
  | getOrCreate d =>
    cases hroom : s.rooms (roomID query d) <;> simp [perform,State.getOrCreate,State.createRoom,hroom]
  | _ => simp [perform]

theorem closes_cons_of_ne {c : C} (h : a ≠ .closeSend c) : closes c (a :: as) = closes c as := by
  cases a with
  | closeSend d =>
    have hd : d ≠ c := by rintro rfl; exact h rfl
    rw [closes,if_neg hd,Nat.add_zero]
  | _ => rfl

/-- A channel is closed from the `close` of its own handler on, and that runs once. -/
theorem closed_iff (h : ServerRun query unmarshal as s) (c : C) :
    ((s.send c).closed = true ↔ 9 ≤ (s.handler c).pc.rank) ∧
      closes c as = if 9 ≤ (s.handler c).pc.rank then 1 else 0 := by
  refine h.invariant (P := fun as s => ((s.send c).closed = true ↔ 9 ≤ (s.handler c).pc.rank) ∧
    closes c as = if 9 ≤ (s.handler c).pc.rank then 1 else 0) (by simp [State.start,Pc.rank,closes]) ?_
  intro as s a s' _ ih hs
  rw [step_closed hs]
  by_cases hcl : a = .closeSend c
  · subst hcl
    have hpc := step_pc hs
    have hen := (step_eq_some.mp hs).1
    simp only [Action.actor,Action.next,enabled,decide_eq_true_eq] at hpc hen
    rw [hen] at ih
    simpa [hpc,closes,Pc.rank] using ih.2
  · rw [closes_cons_of_ne hcl]
    simpa only [(step_rank hs c).closed,hcl,or_false,false_or] using ih

/-- Whoever a message is sent to has not yet closed its channel. -/
theorem open_of_sends (h : ServerRun query unmarshal as s) (hen : enabled query s a = true) {target : C}
    {msg : Msg} (hs : sends query unmarshal s a = some (target,msg)) : (s.send target).closed = false := by
  have hrank : (s.handler target).pc.rank < 9 := by
    cases a with
    | recv c raw =>
      simp only [sends] at hs
      split at hs
      · cases hs
      · obtain ⟨target',hslot,he⟩ := Option.map_eq_some_iff.mp hs
        cases he
        have hclear := (lastSetter_of_slot h hslot).2
        rw [clear_mem_iff h] at hclear
        omega
    | replayOffer c =>
      obtain ⟨offer,_,he⟩ := Option.map_eq_some_iff.mp hs
      cases he
      simp only [enabled,decide_eq_true_eq] at hen
      simp [hen,Pc.rank]
    | _ => cases hs
  have hclosed := (closed_iff h target).1
  rw [← Bool.not_eq_true,hclosed]
  omega

theorem open_of_close (h : ServerRun query unmarshal as s) {c : C}
    (hen : enabled query s (.closeSend c) = true) : (s.send c).closed = false := by
  simp only [enabled,decide_eq_true_eq] at hen
  rw [← Bool.not_eq_true,(closed_iff h c).1,hen]
  simp [Pc.rank]

/-- In a state no action sends on a closed channel or closes a channel again, and so far no channel
has been closed twice and no handler has panicked. -/
structure ChannelsSafe (query : C → Query) (unmarshal : Msg → Option SignalMsg)
    (as : List (Action C Msg)) (s : State C Msg) : Prop where
  sendsOpen : ∀ a target msg, enabled query s a = true →
    sends query unmarshal s a = some (target,msg) → (s.send target).closed = false
  closesOpen : ∀ c, enabled query s (.closeSend c) = true → (s.send c).closed = false
  closedOnce : ∀ c, closes c as ≤ 1
  notPanicked : s.panicked = false

theorem trySend_panicked (c : C) (msg : Msg) (h : (s.send c).closed = false) :
    (s.trySend c msg).panicked = s.panicked := by
  unfold State.trySend
  rw [h]
  simp only [Bool.false_eq_true,if_false]
  split <;> rfl

theorem recv_panicked (c : C) (raw : Msg)
    (h : ∀ target msg, sends query unmarshal s (.recv c raw) = some (target,msg) →
      (s.send target).closed = false) : (s.recv query unmarshal c raw).panicked = s.panicked := by
  have hcache : (s.cacheOffer query unmarshal c raw).panicked = s.panicked := by
    unfold State.cacheOffer
    split <;> rfl
  simp only [State.recv]
  cases hm : unmarshal raw with
  | none => rfl
  | some m =>
    simp only [State.forward,State.deliver,roomOf_slot_cacheOffer]
    cases hslot : (s.roomOf query c).slot (Room.peerOf (role query c)) with
    | none => exact hcache
    | some target =>
      have hopen := h target raw (by simp [sends,hm,hslot])
      simp only
      rw [trySend_panicked _ _ (by rw [cacheOffer_send]; exact hopen),hcache]

theorem not_panicked (h : ServerRun query unmarshal as s) : s.panicked = false := by
  refine h.invariant (P := fun _ s => s.panicked = false) rfl ?_
  intro as s a s' hrun ih hs
  obtain ⟨hen,rfl⟩ := step_eq_some.mp hs
  cases a with
  | recv c raw =>
    exact (recv_panicked c raw fun _ _ hsend => open_of_sends hrun hen hsend).trans ih
  | replayOffer c =>
    change (s.replayOffer c).panicked = false
    unfold State.replayOffer
    cases hcached : (s.handler c).cached with
    | none => exact ih
    | some offer =>
      have hsend : sends query unmarshal s (.replayOffer c) = some (c,offer) := by simp [sends,hcached]
      have hopen : (s.send c).closed = false := open_of_sends hrun hen hsend
      exact (trySend_panicked c offer hopen).trans ih
  | closeSend c =>
    change (s.closeSend c).panicked = false
    rw [State.closeSend,open_of_close hrun hen]
    exact ih
  | getOrCreate c =>
    change (s.getOrCreate query c).panicked = false
    unfold State.getOrCreate
    split <;> exact ih
  | tryDelete c =>
    change (s.tryDelete (roomID query c)).panicked = false
    unfold State.tryDelete
    split
    · exact ih
    · split <;> exact ih
  | _ => exact ih

theorem channels_safe (h : ServerRun query unmarshal as s) : ChannelsSafe query unmarshal as s where
  sendsOpen _ _ _ hen hs := open_of_sends h hen hs
  closesOpen _ hen := open_of_close h hen
  closedOnce c := by
    rw [(closed_iff h c).2]
    split <;> omega
  notPanicked := not_panicked h

end Machine

/-- A device reconnects, and both of its connections end. -/
def reconnectAndLeave : List (Action ℕ String) :=
  reconnect ++ [.closeSend 0,.recv 1 "offer",.clear 1,.closeSend 1]

theorem channels_safe_reconnect :
    ∃ s, ServerRun deviceQuery (fun type => some ⟨type⟩) reconnectAndLeave.reverse s ∧
      ChannelsSafe deviceQuery (fun type => some ⟨type⟩) reconnectAndLeave.reverse s := by
  obtain ⟨s,hrun,_⟩ := exists_run_of_replay (step deviceQuery fun type => some ⟨type⟩) State.start
    reconnectAndLeave (fun _ => true) (by decide +kernel)
  exact ⟨s,hrun,channels_safe hrun⟩

end SignalServer
end AnyKvm
