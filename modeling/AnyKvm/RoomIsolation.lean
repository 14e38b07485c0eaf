import AnyKvm.ChannelSends
import AnyKvm.RoomPointers

/-! What a room can see of the other rooms.
The steps of handlers of other rooms leave everything of a room alone, and its own handlers look at
nothing else, so a room goes through the same states when the other rooms do not exist. -/
namespace AnyKvm
namespace SignalServer

open Transition

section Machine
variable {C Msg : Type*} [DecidableEq C] (query : C → Query) {unmarshal : Msg → Option SignalMsg}

/-- The part of a state that belongs to one room, with nothing else there. -/
def State.restrict (x : String) (s : State C Msg) : State C Msg where
  rooms := fun id => if id = x then s.rooms id else none
  created := fun id => if id = x then s.created id else 0
  heap := fun id n => if id = x then s.heap id n else {}
  handler := fun c => if roomID query c = x then s.handler c else {}
  send := fun c => if roomID query c = x then s.send c else {}
  panicked := s.panicked

def ofRoom (x : String) (a : Action C Msg) : Bool := roomID query a.actor = x

variable {query} {as : List (Action C Msg)} {s s' : State C Msg} {a : Action C Msg} {x : String} {c : C}

section Rooms
omit [DecidableEq C]

theorem restrict_start : (State.start : State C Msg).restrict query x = .start := by
  simp [State.restrict,State.start]

theorem restrict_handler (hc : roomID query c = x) : (s.restrict query x).handler c = s.handler c :=
  if_pos hc

theorem restrict_send (hc : roomID query c = x) : (s.restrict query x).send c = s.send c := if_pos hc

theorem restrict_roomOf (hc : roomID query c = x) :
    (s.restrict query x).roomOf query c = s.roomOf query c := by
  rw [State.roomOf,restrict_handler hc]
  exact if_pos hc

theorem restrict_setRoom (n : ℕ) (r : Room C Msg) :
    (s.restrict query x).setRoom x n r = (s.setRoom x n r).restrict query x := by
  simp only [State.setRoom,State.restrict,State.mk.injEq,true_and,and_true]
  funext id m
  by_cases hid : id = x
  · subst hid
    simp
  · simp [hid]

theorem restrict_updateRoomOf (hc : roomID query c = x) (f : Room C Msg → Room C Msg) :
    (s.restrict query x).updateRoomOf query c f = (s.updateRoomOf query c f).restrict query x := by
  unfold State.updateRoomOf
  rw [restrict_roomOf hc,restrict_handler hc,hc]
  exact restrict_setRoom _ _

theorem restrict_createRoom : (s.restrict query x).createRoom x = (s.createRoom x).restrict query x := by
  unfold State.createRoom
  have hcreated : (s.restrict query x).created x = s.created x := if_pos rfl
  rw [hcreated,restrict_setRoom]
  simp only [State.restrict,setRoom_rooms,setRoom_created,State.mk.injEq,and_true]
  constructor
  · funext id
    by_cases hid : id = x <;> simp [hid]
  · funext id
    by_cases hid : id = x <;> simp [hid]

theorem restrict_tryDelete : (s.restrict query x).tryDelete x = (s.tryDelete x).restrict query x := by
  unfold State.tryDelete
  have hrooms : (s.restrict query x).rooms x = s.rooms x := if_pos rfl
  have hheap : ∀ n, (s.restrict query x).heap x n = s.heap x n := fun _ => if_pos rfl
  rw [hrooms]
  cases s.rooms x with
  | none => rfl
  | some n =>
    simp only [hheap]
    split
    · simp only [State.restrict,State.mk.injEq,and_true]
      funext id
      by_cases hid : id = x <;> simp [hid]
    · rfl

theorem restrict_enabled (hc : roomID query a.actor = x) :
    enabled query (s.restrict query x) a = enabled query s a := by
  cases a <;> simp only [Action.actor] at hc <;>
    simp only [enabled,restrict_handler hc,restrict_send hc]

end Rooms

theorem restrict_setHandler (hc : roomID query c = x) (h : Handler Msg) :
    (s.restrict query x).setHandler c h = (s.setHandler c h).restrict query x := by
  simp only [State.setHandler,State.restrict,State.mk.injEq,true_and,and_true]
  funext d
  by_cases hd : d = c
  · subst hd
    simp [hc]
  · simp [hd]

theorem restrict_setSend (hc : roomID query c = x) (ch : SendChan Msg) :
    (s.restrict query x).setSend c ch = (s.setSend c ch).restrict query x := by
  simp only [State.setSend,State.restrict,State.mk.injEq,true_and,and_true]
  funext d
  by_cases hd : d = c
  · subst hd
    simp [hc]
  · simp [hd]

theorem restrict_trySend (hc : roomID query c = x) (msg : Msg) :
    (s.restrict query x).trySend c msg = (s.trySend c msg).restrict query x := by
  unfold State.trySend
  rw [restrict_send hc]
  split
  · rfl
  · cases (s.send c).queue.push? msg with
    | none => rfl
    | some q => exact restrict_setSend hc _

theorem restrict_closeSend (hc : roomID query c = x) :
    (s.restrict query x).closeSend c = (s.closeSend c).restrict query x := by
  unfold State.closeSend
  rw [restrict_send hc]
  split
  · rfl
  · exact restrict_setSend hc _

theorem restrict_getOrCreate (hc : roomID query c = x) :
    (s.restrict query x).getOrCreate query c = (s.getOrCreate query c).restrict query x := by
  unfold State.getOrCreate
  have hrooms : (s.restrict query x).rooms x = s.rooms x := if_pos rfl
  have hcreated : (s.restrict query x).created x = s.created x := if_pos rfl
  rw [restrict_handler hc,hc,hrooms,hcreated,restrict_createRoom]
  cases s.rooms x with
  | some n => exact restrict_setHandler hc _
  | none => exact restrict_setHandler hc _

theorem restrict_goto (hc : roomID query c = x) (pc : Pc) :
    (s.restrict query x).goto c pc = (s.goto c pc).restrict query x := by
  unfold State.goto
  rw [restrict_handler hc]
  exact restrict_setHandler hc _

def SlotsAtHome (query : C → Query) (s : State C Msg) : Prop :=
  ∀ id n ρ c, (s.heap id n).slot ρ = some c → roomID query c = id

theorem slotsAtHome (h : ServerRun query unmarshal as s) : SlotsAtHome query s := by
  intro id n ρ c hslot
  exact (lastSetter_spec (lastSetter_of_slot h hslot).1).2.1.1.symm

theorem restrict_recv (hc : roomID query c = x) (hhome : SlotsAtHome query s) (raw : Msg) :
    (s.restrict query x).recv query unmarshal c raw = (s.recv query unmarshal c raw).restrict query x := by
  have hcache : (s.restrict query x).cacheOffer query unmarshal c raw =
      (s.cacheOffer query unmarshal c raw).restrict query x := by
    unfold State.cacheOffer
    split
    · exact restrict_updateRoomOf hc _
    · rfl
  unfold State.recv
  cases unmarshal raw with
  | none => rfl
  | some m =>
    simp only [State.forward,State.deliver,hcache,restrict_roomOf hc]
    cases hslot : ((s.cacheOffer query unmarshal c raw).roomOf query c).slot
        (Room.peerOf (role query c)) with
    | none => rfl
    | some target =>
      rw [roomOf_slot_cacheOffer] at hslot
      exact restrict_trySend ((hhome _ _ _ _ hslot).trans hc) raw

theorem restrict_replayOffer (hc : roomID query c = x) :
    (s.restrict query x).replayOffer c = (s.replayOffer c).restrict query x := by
  unfold State.replayOffer
  rw [restrict_handler hc]
  cases (s.handler c).cached with
  | none => rfl
  | some offer => exact restrict_trySend hc offer

theorem restrict_perform (hc : roomID query a.actor = x) (hhome : SlotsAtHome query s) :
    perform query unmarshal (s.restrict query x) a = (perform query unmarshal s a).restrict query x := by
  cases a <;> simp only [Action.actor] at hc
  case connect c => exact restrict_goto hc .upgraded
  case getOrCreate c => exact restrict_getOrCreate hc
  case set c =>
    simp only [perform,restrict_updateRoomOf hc]
    exact restrict_goto hc .registered
  case setName c now =>
    simp only [perform,restrict_updateRoomOf hc]
    exact restrict_goto hc .named
  case spawnPump c =>
    simp only [perform,restrict_handler hc]
    exact restrict_setHandler hc _
  case readCache c =>
    simp only [perform,restrict_handler hc,restrict_roomOf hc]
    exact restrict_setHandler hc _
  case replayOffer c =>
    simp only [perform,restrict_replayOffer hc]
    exact restrict_goto hc .reading
  case recv c raw => exact restrict_recv hc hhome raw
  case clear c =>
    simp only [perform,restrict_updateRoomOf hc]
    exact restrict_goto hc .cleared
  case closeSend c =>
    simp only [perform,restrict_closeSend hc]
    exact restrict_goto hc .closed
  case tryDelete c =>
    simp only [perform,hc,restrict_tryDelete]
    exact restrict_goto hc .done
  case pump c =>
    simp only [perform,restrict_send hc]
    exact restrict_setSend hc _
  case pumpFail c =>
    simp only [perform,restrict_send hc,restrict_handler hc,restrict_setSend hc]
    exact restrict_setHandler hc _
  case pumpClose c =>
    simp only [perform,restrict_handler hc]
    exact restrict_setHandler hc _

theorem step_created_ne (hs : step query unmarshal s a = some s') (hne : roomID query a.actor ≠ x) :
    s'.created x = s.created x := by
  obtain ⟨_,rfl⟩ := step_eq_some.mp hs
  cases a with
  | getOrCreate c =>
    simp only [perform,getOrCreate_created]
    exact if_neg fun h => hne h.2.symm
  | _ => simp [perform]

theorem step_heap_ne (hs : step query unmarshal s a = some s') (hne : roomID query a.actor ≠ x) (n : ℕ) :
    s'.heap x n = s.heap x n := by
  obtain ⟨_,rfl⟩ := step_eq_some.mp hs
  cases a with
  | getOrCreate c =>
    simp only [perform,getOrCreate_heap]
    exact if_neg fun h => hne h.2.1.symm
  | set c =>
    simp only [perform,goto_heap,updateRoomOf_heap]
    exact if_neg fun h => hne h.1.symm
  | setName c now =>
    simp only [perform,goto_heap,updateRoomOf_heap]
    exact if_neg fun h => hne h.1.symm
  | clear c =>
    simp only [perform,goto_heap,updateRoomOf_heap]
    exact if_neg fun h => hne h.1.symm
  | recv c raw =>
    simp only [perform,recv_heap]
    exact if_neg fun h => hne h.2.1.symm
  | _ => simp [perform]

theorem step_rooms_ne (hs : step query unmarshal s a = some s') (hne : roomID query a.actor ≠ x) :
    s'.rooms x = s.rooms x := by
  rw [step_rooms hs]
  cases a with
  | getOrCreate c => exact if_neg fun h => hne h.symm
  | tryDelete c => exact if_neg fun h => hne h.1.symm
  | _ => rfl

omit [DecidableEq C] in
/-- Messages go to connections of the sender's room. -/
theorem room_of_sends (hhome : SlotsAtHome query s) {target : C} {msg : Msg}
    (h : sends query unmarshal s a = some (target,msg)) : roomID query target = roomID query a.actor := by
  cases a with
  | recv d raw =>
    simp only [sends] at h
    split at h
    · cases h
    · obtain ⟨target',hslot,he⟩ := Option.map_eq_some_iff.mp h
      cases he
      exact hhome _ _ _ _ hslot
  | replayOffer d =>
    obtain ⟨offer,_,he⟩ := Option.map_eq_some_iff.mp h
    cases he
    rfl
  | _ => cases h

theorem step_send_ne (hs : step query unmarshal s a = some s') (hhome : SlotsAtHome query s)
    (hne : roomID query a.actor ≠ x) (hc : roomID query c = x) : s'.send c = s.send c := by
  have hactor : ∀ d, a.actor = d → d ≠ c := by
    rintro d rfl rfl
    exact hne hc
  have hitems := step_items hs c
  have hpops : a.pops c = false := by
    cases a <;> simp only [Action.pops,decide_eq_false_iff_not]
    · exact hactor _ rfl
    · exact hactor _ rfl
  have hnone : enqueued query unmarshal s a c = none := by
    rw [Option.eq_none_iff_forall_ne_some]
    intro msg hmsg
    exact hne ((room_of_sends hhome (enqueued_eq_some.mp hmsg).1).symm.trans hc)
  have hclosed := step_closed hs c
  have hclose : a ≠ .closeSend c := by
    rintro rfl
    exact hactor c rfl rfl
  rw [hpops,hnone,Option.toList_none,List.append_nil] at hitems
  simp only [hclose,or_false] at hclosed
  cases hs' : s'.send c with
  | mk q' closed' =>
    cases hs₀ : s.send c with
    | mk q closed =>
      rw [hs',hs₀] at hitems hclosed
      simp only [SendChan.mk.injEq]
      exact ⟨BoundedQueue.ext hitems,Bool.eq_iff_iff.mpr hclosed⟩

theorem restrict_step_ne (hrun : ServerRun query unmarshal as s) (hs : step query unmarshal s a = some s')
    (hne : roomID query a.actor ≠ x) : s'.restrict query x = s.restrict query x := by
  have hhome := slotsAtHome hrun
  simp only [State.restrict,State.mk.injEq]
  refine ⟨?_,?_,?_,?_,?_,?_⟩
  · funext id
    by_cases hid : id = x
    · subst hid
      simp only [step_rooms_ne hs hne]
    · simp [hid]
  · funext id
    by_cases hid : id = x
    · subst hid
      simp only [step_created_ne hs hne]
    · simp [hid]
  · funext id n
    by_cases hid : id = x
    · subst hid
      simp only [step_heap_ne hs hne]
    · simp [hid]
  · funext c
    by_cases hc : roomID query c = x
    · rw [if_pos hc,if_pos hc]
      apply step_handler_ne hs
      rintro rfl
      exact hne hc
    · simp [hc]
  · funext c
    by_cases hc : roomID query c = x
    · rw [if_pos hc,if_pos hc]
      exact step_send_ne hs hhome hne hc
    · simp [hc]
  · rw [not_panicked (.next hrun hs),not_panicked hrun]

theorem restrict_run (h : ServerRun query unmarshal as s) (x : String) :
    ServerRun query unmarshal (as.filter (ofRoom query x)) (s.restrict query x) := by
  induction h with
  | init =>
    rw [restrict_start]
    exact .init
  | @next as s s' a hrun hs ih =>
    by_cases ha : ofRoom query x a = true
    · have hc : roomID query a.actor = x := of_decide_eq_true ha
      obtain ⟨hen,rfl⟩ := step_eq_some.mp hs
      rw [List.filter_cons_of_pos ha]
      refine .next ih (step_eq_some.mpr ⟨?_,restrict_perform hc (slotsAtHome hrun)⟩)
      rwa [restrict_enabled hc]
    · have hc : roomID query a.actor ≠ x := fun hc => ha (decide_eq_true hc)
      rw [List.filter_cons_of_neg ha,restrict_step_ne hrun hs hc]
      exact ih

/-- A room is the same in two states of the process: the object registered under its id, and the
handlers of its connections with the room objects they hold, up to the addresses, and their channels. -/
structure SameRoom (query : C → Query) (x : String) (p p' : Process C Msg) : Prop where
  registered : (p.rooms x).map p.heap = (p'.rooms x).map p'.heap
  handler : ∀ c, roomID query c = x → p'.handler c = { p.handler c with rm := (p'.handler c).rm }
  roomOf : ∀ c, roomID query c = x → 2 ≤ (p.handler c).pc.rank → p'.roomOf c = p.roomOf c
  send : ∀ c, roomID query c = x → p'.send c = p.send c

omit [DecidableEq C] in
theorem Located.sameRoom {addr addr' : String → ℕ → ℕ} {p p' : Process C Msg}
    (h : Located query addr p s) (h' : Located query addr' p' (s.restrict query x))
    (ha : Allocated query s) (ha' : Allocated query (s.restrict query x)) : SameRoom query x p p' := by
  have hrooms : (s.restrict query x).rooms x = s.rooms x := if_pos rfl
  have hheap : ∀ n, (s.restrict query x).heap x n = s.heap x n := fun _ => if_pos rfl
  refine ⟨?_,?_,?_,?_⟩
  · rw [h.rooms,h'.rooms,hrooms]
    cases hr : s.rooms x with
    | none => rfl
    | some n =>
      simp only [Option.map_some]
      rw [h.heap x n (ha.listed x n hr),h'.heap x n (ha'.listed x n (hrooms.trans hr)),hheap]
  · intro c hc
    have hp := h.handler c
    have hp' := h'.handler c
    rw [restrict_handler hc] at hp'
    rw [hp',hp]
  · intro c hc h2
    rw [h.pc] at h2
    rw [h.roomOf ha h2,h'.roomOf ha' (by rwa [restrict_handler hc]),restrict_roomOf hc]
  · intro c hc
    rw [h.send,h'.send,restrict_send hc]

/-- Whatever happens in other rooms, a room goes through the same states as in the run without the
steps of their handlers. -/
theorem room_isolated {p : Process C Msg} (h : ProcessRun query unmarshal as p) (x : String) :
    (∃ p', ProcessRun query unmarshal (as.filter (ofRoom query x)) p') ∧
      ∀ as' q q', as' <:+ as → ProcessRun query unmarshal as' q →
        ProcessRun query unmarshal (as'.filter (ofRoom query x)) q' → SameRoom query x q q' := by
  constructor
  · obtain ⟨_,s,hrun,_⟩ := located_of_processRun h
    obtain ⟨_,p',hrun',_⟩ := located_of_serverRun (restrict_run hrun x)
    exact ⟨p',hrun'⟩
  · intro as' q q' _ hq hq'
    obtain ⟨_,s,hrun,hl⟩ := located_of_processRun hq
    obtain ⟨_,s',hrun',hl'⟩ := located_of_processRun hq'
    cases hrun'.unique (restrict_run hrun x)
    exact hl.sameRoom hl' (allocated hrun) (allocated hrun')

end Machine

/-- A device and a client in one room, and a device in another. -/
def twoRoomsQuery (c : ℕ) : Query :=
  ⟨if c = 2 then "kvm-room-2" else "kvm-room-1",if c = 1 then "client" else "device",""⟩

/-- The other device sends an offer and leaves while the client of the first room connects. -/
def interleavedRooms : List (Action ℕ String) :=
  [.connect 2,.getOrCreate 2,.connect 0,.getOrCreate 0,.set 2,.set 0,.setName 0 1,.setName 2 1,
    .spawnPump 0,.spawnPump 2,.recv 0 "offer",.recv 2 "offer",.connect 1,.clear 2,.getOrCreate 1,.set 1,
    .closeSend 2,.spawnPump 1,.readCache 1,.tryDelete 2,.replayOffer 1]

theorem room_isolated_interleaved :
    ∃ p, ProcessRun twoRoomsQuery (fun type => some ⟨type⟩) interleavedRooms.reverse p ∧
      (p.send 1).queue.items = ["offer"] ∧
      (∃ p', ProcessRun twoRoomsQuery (fun type : String => some ⟨type⟩)
        (interleavedRooms.reverse.filter (ofRoom twoRoomsQuery "kvm-room-1")) p') ∧
      ∀ as' q q', as' <:+ interleavedRooms.reverse →
        ProcessRun twoRoomsQuery (fun type : String => some ⟨type⟩) as' q →
        ProcessRun twoRoomsQuery (fun type => some ⟨type⟩)
          (as'.filter (ofRoom twoRoomsQuery "kvm-room-1")) q' →
        SameRoom twoRoomsQuery "kvm-room-1" q q' := by
  obtain ⟨p,hrun,hp⟩ := exists_run_of_replay (Process.step twoRoomsQuery fun type => some ⟨type⟩) .start
    interleavedRooms (fun p => (p.send 1).queue.items = ["offer"]) (by decide +kernel)
  exact ⟨p,hrun,of_decide_eq_true hp,room_isolated hrun "kvm-room-1"⟩

end SignalServer
end AnyKvm
