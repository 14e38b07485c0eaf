import AnyKvm.HandlerLifecycle

/-! Whether the registry lists the room objects that handlers use.
A handler looks its room up and registers in it in two critical sections; `tryDelete`
of another handler may delete the room in between, as nobody is registered yet. -/
namespace AnyKvm
namespace SignalServer

open Transition

/-- An entry of the response of `agentsHandler`. -/
structure AgentInfo where
  roomID : String
  name : String
  connectedAt : ℕ
  deriving DecidableEq, Repr

/-- What `agentsHandler` reports for one id: the registered room, if a device is in it. -/
def agentInfo {C Msg : Type*} (s : State C Msg) (id : String) : Option AgentInfo :=
  (s.rooms id).bind fun n =>
    let rm := s.heap id n
    if rm.device.isSome then some ⟨id,rm.deviceName,rm.connectedAt⟩ else none

section Machine
variable {C Msg : Type*} [DecidableEq C] (query : C → Query) (unmarshal : Msg → Option SignalMsg)

/-- Each room id and role has at most one connection alive. -/
def OneAlive (s : State C Msg) : Prop :=
  ∀ c d, roomID query c = roomID query d → role query c = role query d →
    (s.handler c).pc.Alive → (s.handler d).pc.Alive → c = d

instance (n : ℕ) (query : Fin n → Query) (s : State (Fin n) Msg) : Decidable (OneAlive query s) :=
  inferInstanceAs (Decidable (∀ _ _, _))

/-- Registered handlers use the listed room object, so the device and the client of an id meet
in one object and the device is reported by `agentsHandler`. -/
structure RoomIdentity (s : State C Msg) : Prop where
  listed : ∀ c, (s.handler c).pc.Registered → s.rooms (roomID query c) = some (s.handler c).rm
  shared : ∀ d c, (s.handler d).pc.Registered → (s.handler c).pc.Registered →
    role query d = .device → role query c = .client → roomID query d = roomID query c →
    (s.handler d).rm = (s.handler c).rm ∧
      (s.roomOf query d).client = some c ∧ (s.roomOf query c).device = some d
  visible : ∀ d, (s.handler d).pc.Registered → role query d = .device →
    (agentInfo s (roomID query d)).isSome = true

/-- `tryDelete` does not hit a room that another handler has looked up and not yet registered in. -/
def NoDeleteBeforeSet (_ : List (Action C Msg)) (s : State C Msg) : Action C Msg → Prop
  | .tryDelete c => ∀ d, roomID query d = roomID query c → (s.handler d).pc = .found →
      s.rooms (roomID query c) = some (s.handler d).rm → (s.roomOf query d).isEmpty = false
  | _ => True

instance (n : ℕ) (query : Fin n → Query) (as : List (Action (Fin n) Msg)) (s : State (Fin n) Msg)
    (a : Action (Fin n) Msg) : Decidable (NoDeleteBeforeSet query as s a) :=
  match a with
  | .tryDelete _ => inferInstanceAs (Decidable (∀ _, _))
  | .connect _ | .getOrCreate _ | .set _ | .setName .. | .spawnPump _ | .readCache _ | .replayOffer _
  | .recv .. | .clear _ | .closeSend _ | .pump _ | .pumpFail _ | .pumpClose _ => .isTrue trivial

/-- Handlers hold the listed room of their id, and registered ones are in its slot. -/
structure Held (s : State C Msg) : Prop where
  listed : ∀ c, (s.handler c).pc.Alive → s.rooms (roomID query c) = some (s.handler c).rm
  inSlot : ∀ c, (s.handler c).pc.Registered → (s.roomOf query c).slot (role query c) = some c

variable {query unmarshal} {as : List (Action C Msg)} {s s' : State C Msg} {a : Action C Msg}

omit [DecidableEq C] in
theorem Held.roomIdentity (h : Held query s) : RoomIdentity query s where
  listed c hc := h.listed c hc.alive
  shared d c hd hc hrd hrc hid := by
    have hrm : (s.handler d).rm = (s.handler c).rm := by
      have h₁ := h.listed d hd.alive
      rw [hid,h.listed c hc.alive] at h₁
      exact (Option.some.inj h₁).symm
    have hdev := h.inSlot d hd
    have hcli := h.inSlot c hc
    rw [hrd,State.roomOf,hid,hrm] at hdev
    rw [hrc,State.roomOf,← hid,← hrm] at hcli
    exact ⟨hrm,hcli,hdev⟩
  visible d hd hrd := by
    have hdev := h.inSlot d hd
    rw [hrd,State.roomOf,Room.slot] at hdev
    simp [agentInfo,h.listed d hd.alive,hdev]

/-- Alive handlers stay alive, and keep their room object, under the steps of others; only
`getOrCreate` makes a handler alive and only `set` makes it registered. -/
theorem alive_of_step (hs : step query unmarshal s a = some s') {c : C} (hc : (s'.handler c).pc.Alive) :
    a = .getOrCreate c ∨ a ≠ .getOrCreate c ∧ (s.handler c).pc.Alive := by
  by_cases hg : a = .getOrCreate c
  · exact .inl hg
  refine .inr ⟨hg,((step_rank hs c).found.mp hc.1).resolve_left hg,?_⟩
  by_contra hlt
  have h := (step_rank hs c).clear.mpr (.inr (by omega))
  have := hc.2
  omega

theorem registered_of_step (hs : step query unmarshal s a = some s') {c : C}
    (hc : (s'.handler c).pc.Registered) : a = .set c ∨ a ≠ .set c ∧ (s.handler c).pc.Registered := by
  by_cases hg : a = .set c
  · exact .inl hg
  refine .inr ⟨hg,((step_rank hs c).set.mp hc.1).resolve_left hg,?_⟩
  by_contra hlt
  have h := (step_rank hs c).clear.mpr (.inr (by omega))
  have := hc.2
  omega

theorem Held.listed_step (hheld : Held query s) (hwin : NoDeleteBeforeSet query as s a)
    (hs : step query unmarshal s a = some s') (c : C) (hc : (s'.handler c).pc.Alive) :
    s'.rooms (roomID query c) = some (s'.handler c).rm := by
  rcases alive_of_step hs hc with rfl | ⟨hg,hold⟩
  · obtain ⟨_,rfl⟩ := step_eq_some.mp hs
    simp [perform,getOrCreate_rooms,getOrCreate_handler]
  have hlisted := hheld.listed c hold
  rw [step_rm hs c hg,step_rooms hs]
  cases a with
  | getOrCreate d =>
    simp only
    split
    · rename_i hid
      rw [← hid,hlisted,Option.getD_some]
    · exact hlisted
  | tryDelete d =>
    simp only
    split
    · rename_i h
      obtain ⟨hid,n,hn,hempty⟩ := h
      rw [← hid,hlisted,Option.some.injEq] at hn
      subst hn
      rw [← hid] at hempty
      rcases hold.registered_or with hreg | hfound
      · have hslot := hheld.inSlot c hreg
        rw [State.roomOf,Room.slot_of_isEmpty hempty] at hslot
        cases hslot
      · have h := hwin c hid hfound (by rw [← hid]; exact hlisted)
        rw [State.roomOf,hempty] at h
        cases h
    · exact hlisted
  | _ => exact hlisted

theorem Held.inSlot_step (hheld : Held query s) (halloc : Allocated query s) (hone : OneAlive query s)
    (hone' : OneAlive query s') (hs : step query unmarshal s a = some s') (c : C)
    (hc : (s'.handler c).pc.Registered) : (s'.roomOf query c).slot (role query c) = some c := by
  have hg : a ≠ .getOrCreate c := by
    rintro rfl
    have h := step_pc hs
    simp only [Action.actor,Action.next] at h
    simp [h,Pc.Registered,Pc.rank] at hc
  rw [State.roomOf,step_rm hs c hg,step_slot hs]
  rcases registered_of_step hs hc with rfl | ⟨hset,hold⟩
  · simp
  have hslot := hheld.inSlot c hold
  cases a with
  | set d =>
    simp only
    split
    · rename_i h
      obtain ⟨⟨hid,_⟩,hr⟩ := h
      have hd : (s'.handler d).pc.Alive := by
        have h := step_pc hs
        simp only [Action.actor,Action.next] at h
        simp [h,Pc.Alive,Pc.rank]
      rw [hone' d c hid.symm hr hd hc.alive]
    · exact hslot
  | clear d =>
    simp only
    split
    · rename_i h
      obtain ⟨⟨hid,_⟩,hr⟩ := h
      have hd : (s.handler d).pc.Alive := by
        have hen := (step_eq_some.mp hs).1
        simp only [enabled,decide_eq_true_eq] at hen
        simp [hen,Pc.Alive,Pc.rank]
      have hdc := hone d c hid.symm hr hd hold.alive
      subst hdc
      have h := step_pc hs
      simp only [Action.actor,Action.next] at h
      simp [h,Pc.Registered,Pc.rank] at hc
    · exact hslot
  | getOrCreate d =>
    simp only
    split
    · rename_i h
      obtain ⟨_,hid,hn⟩ := h
      have hlt := halloc.held c (by have := hold.1; omega)
      rw [hid] at hlt
      omega
    · exact hslot
  | _ => exact hslot

theorem held_of_guarded (h : GuardedRun (step query unmarshal) State.start (NoDeleteBeforeSet query) as s)
    (hone : Always (step query unmarshal) State.start (fun _ => OneAlive query) as) : Held query s := by
  refine h.invariant_within (P := fun _ s => Held query s) ?_ ?_ hone
  · exact ⟨by simp [State.start,Pc.Alive,Pc.rank],by simp [State.start,Pc.Registered,Pc.rank]⟩
  · intro as s a s' hprev hone hone' hheld hwin hs
    exact ⟨hheld.listed_step hwin hs,hheld.inSlot_step (allocated hprev.run) hone hone' hs⟩

/-- If no `tryDelete` deletes a room between another handler's lookup and its registration, then
every registered handler uses the room object that the registry lists. -/
theorem room_identity (h : GuardedRun (step query unmarshal) State.start (NoDeleteBeforeSet query) as s)
    (hone : Always (step query unmarshal) State.start (fun _ => OneAlive query) as) :
    RoomIdentity query s :=
  (held_of_guarded h hone).roomIdentity

end Machine

/-- Connection 0 opens the device role of a room and connection 1 its client role. -/
def pairQuery : ℕ → Query
  | 0 => ⟨"kvm-room-1","device",""⟩
  | _ => ⟨"kvm-room-1","client",""⟩

theorem pairQuery_role : ∀ c < 2, ∀ d < 2, role pairQuery c = role pairQuery d → c = d := by
  decide

abbrev pairStep : State ℕ String → Action ℕ String → Option (State ℕ String) :=
  step pairQuery fun _ => none

/-- While only the connections 0 and 1 have acted, no role is taken twice. -/
theorem oneAlive_pair {as : List (Action ℕ String)} {s : State ℕ String}
    (h : ServerRun pairQuery (fun _ => none) as s) (has : ∀ a ∈ as, a.actor < 2) :
    OneAlive pairQuery s := by
  have hlt : ∀ c, (s.handler c).pc.Alive → c < 2 := by
    intro c hc
    by_contra hge
    rw [absent_of_not_acted h fun a ha => by have := has a ha; omega] at hc
    simp [Pc.Alive,Pc.rank] at hc
  intro c d _ hrole hc hd
  exact pairQuery_role c (hlt c hc) d (hlt d hd) hrole

theorem always_oneAlive_pair {as : List (Action ℕ String)} (has : ∀ a ∈ as, a.actor < 2) :
    Always pairStep State.start (fun _ => OneAlive pairQuery) as :=
  fun _ _ hsuf hrun => oneAlive_pair hrun fun a ha => has a (hsuf.subset ha)

/-- A client that has left cleans up when the next one is in the room and the device has looked it up. -/
def cleanUpDuringLookup : List (Action (Fin 3) String) :=
  [.connect 1,.getOrCreate 1,.set 1,.spawnPump 1,.readCache 1,.replayOffer 1,.clear 1,.closeSend 1,
    .connect 2,.getOrCreate 2,.set 2,.connect 0,.getOrCreate 0,.tryDelete 1,.set 0]

/-- The device and two clients. -/
def trioQuery (c : Fin 3) : Query := pairQuery c

abbrev trioStep : State (Fin 3) String → Action (Fin 3) String → Option (State (Fin 3) String) :=
  step trioQuery fun _ => none

theorem room_identity_cleanUpDuringLookup :
    ∃ s, GuardedRun trioStep State.start (NoDeleteBeforeSet trioQuery)
        cleanUpDuringLookup.reverse s ∧
      (∀ c, (s.handler c).pc.Registered ↔ c ≠ 1) ∧ RoomIdentity trioQuery s := by
  obtain ⟨s,hguard,hp⟩ := exists_guarded_of_replay trioStep State.start (NoDeleteBeforeSet trioQuery)
    cleanUpDuringLookup (fun s => ∀ c, (s.handler c).pc.Registered ↔ c ≠ 1) (by decide +kernel)
  have hone : Always trioStep State.start (fun _ s => decide (OneAlive trioQuery s) = true)
      cleanUpDuringLookup.reverse :=
    always_of_replay _ _ (by decide +kernel)
  exact ⟨s,hguard,of_decide_eq_true hp,
    room_identity hguard fun as t hsuf hrun => of_decide_eq_true (hone as t hsuf hrun)⟩

/-- A client leaves while the device is between its lookup and its registration. -/
def leaveDuringLookup : List (Action ℕ String) :=
  [.connect 1,.getOrCreate 1,.set 1,.spawnPump 1,.readCache 1,.replayOffer 1,.clear 1,.closeSend 1,
    .connect 0,.getOrCreate 0,.tryDelete 1,.set 0]

/-- The device ends up in a room that the registry no longer lists. -/
theorem device_in_unlisted_room :
    ¬ ∀ as s, ServerRun pairQuery (fun _ : String => none) as s →
      Always pairStep State.start (fun _ => OneAlive pairQuery) as → RoomIdentity pairQuery s := by
  intro h
  obtain ⟨s,hrun,hp⟩ := exists_run_of_replay pairStep State.start leaveDuringLookup
    (fun s => (s.handler 0).pc = .registered ∧ s.rooms "kvm-room-1" = none) (by decide)
  obtain ⟨hpc,hrooms⟩ := of_decide_eq_true hp
  have hactors : ∀ a ∈ leaveDuringLookup.reverse, a.actor < 2 := by decide
  have hid := h _ s hrun (always_oneAlive_pair hactors)
  have hlisted := hid.listed 0 (by rw [hpc]; simp [Pc.Registered,Pc.rank])
  change s.rooms "kvm-room-1" = _ at hlisted
  rw [hrooms] at hlisted
  cases hlisted

end SignalServer
end AnyKvm
