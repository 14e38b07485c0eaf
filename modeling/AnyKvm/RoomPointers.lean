import AnyKvm.HandlerLifecycle

/-! The signalling server with its room objects at addresses of one shared heap.
The registry and the handlers hold pointers, and nothing in the state tells for which id an object
was made; that objects of different ids never coincide is proved, and with it that the machine
with numbered room objects describes the same runs. -/
namespace AnyKvm
namespace SignalServer

open Transition

/-- The process state; the field `rm` of a handler is the address of its room object, and the objects
below `allocated` have been made. -/
structure Process (C Msg : Type*) where
  rooms : String → Option ℕ
  allocated : ℕ
  heap : ℕ → Room C Msg
  handler : C → Handler Msg
  send : C → SendChan Msg
  panicked : Bool

def Process.start {C Msg : Type*} : Process C Msg where
  rooms := fun _ => none
  allocated := 0
  heap := fun _ => {}
  handler := fun _ => {}
  send := fun _ => {}
  panicked := false

section Machine
variable {C Msg : Type*} [DecidableEq C] (query : C → Query) (unmarshal : Msg → Option SignalMsg)

namespace Process
variable (p : Process C Msg)

def roomOf (c : C) : Room C Msg := p.heap (p.handler c).rm

def updateRoomOf (c : C) (f : Room C Msg → Room C Msg) : Process C Msg :=
  { p with heap := Function.update p.heap (p.handler c).rm (f (p.roomOf c)) }

def setHandler (c : C) (h : Handler Msg) : Process C Msg :=
  { p with handler := Function.update p.handler c h }

def goto (c : C) (pc : Pc) : Process C Msg := p.setHandler c { p.handler c with pc := pc }

def setSend (c : C) (ch : SendChan Msg) : Process C Msg :=
  { p with send := Function.update p.send c ch }

def trySend (c : C) (msg : Msg) : Process C Msg :=
  if (p.send c).closed then { p with panicked := true }
  else match (p.send c).queue.push? msg with
    | none => p
    | some q => p.setSend c { p.send c with queue := q }

/-- `r = &room{}; rooms[id] = r` -/
def createRoom (id : String) : Process C Msg :=
  { p with
    heap := Function.update p.heap p.allocated {},
    rooms := Function.update p.rooms id (some p.allocated),
    allocated := p.allocated + 1 }

def getOrCreate (c : C) : Process C Msg :=
  match p.rooms (roomID query c) with
  | some r => p.setHandler c { p.handler c with pc := .found, rm := r }
  | none => (p.createRoom (roomID query c)).setHandler c
      { p.handler c with pc := .found, rm := p.allocated }

def cacheOffer (c : C) (raw : Msg) : Process C Msg :=
  if role query c = .device ∧ isOffer unmarshal raw = true then
    p.updateRoomOf c fun r => { r with offerCache := some raw }
  else p

def deliver (c : C) (raw : Msg) : Process C Msg :=
  match (p.roomOf c).slot (Room.peerOf (role query c)) with
  | none => p
  | some target => p.trySend target raw

def recv (c : C) (raw : Msg) : Process C Msg :=
  match unmarshal raw with
  | none => p
  | some _ => (p.cacheOffer query unmarshal c raw).deliver query c raw

def replayOffer (c : C) : Process C Msg :=
  match (p.handler c).cached with
  | none => p
  | some offer => p.trySend c offer

def closeSend (c : C) : Process C Msg :=
  if (p.send c).closed then { p with panicked := true }
  else p.setSend c { p.send c with closed := true }

def tryDelete (id : String) : Process C Msg :=
  match p.rooms id with
  | none => p
  | some r => if (p.heap r).isEmpty then { p with rooms := Function.update p.rooms id none } else p

def enabled : Action C Msg → Bool
  | .connect c => (p.handler c).pc = .absent ∧ (validate (query c)).isOk
  | .getOrCreate c => (p.handler c).pc = .upgraded
  | .set c => (p.handler c).pc = .found
  | .setName c _ => (p.handler c).pc = .registered ∧ role query c = .device
  | .spawnPump c => (p.handler c).pc = .named ∨ (p.handler c).pc = .registered ∧ role query c = .client
  | .readCache c => (p.handler c).pc = .spawned
  | .replayOffer c => (p.handler c).pc = .cacheRead
  | .recv c _ => (p.handler c).pc = .reading
  | .clear c => (p.handler c).pc = .reading
  | .closeSend c => (p.handler c).pc = .cleared
  | .tryDelete c => (p.handler c).pc = .closed
  | .pump c => (p.handler c).pumping ∧ (p.send c).queue.items ≠ []
  | .pumpFail c => (p.handler c).pumping ∧ (p.send c).queue.items ≠ []
  | .pumpClose c => (p.handler c).pumping ∧ (p.send c).closed ∧ (p.send c).queue.items = []

def perform : Action C Msg → Process C Msg
  | .connect c => p.goto c .upgraded
  | .getOrCreate c => p.getOrCreate query c
  | .set c => (p.updateRoomOf c fun r => r.set (role query c) c).goto c .registered
  | .setName c now =>
    (p.updateRoomOf c fun r =>
      { r with deviceName := if (query c).name = "" then roomID query c else (query c).name,
               connectedAt := now }).goto c .named
  | .spawnPump c => p.setHandler c { p.handler c with
      pc := if role query c = .client then .spawned else .reading, pumping := true }
  | .readCache c =>
    p.setHandler c { p.handler c with pc := .cacheRead, cached := (p.roomOf c).offerCache }
  | .replayOffer c => (p.replayOffer c).goto c .reading
  | .recv c raw => p.recv query unmarshal c raw
  | .clear c => (p.updateRoomOf c fun r => r.clear (role query c)).goto c .cleared
  | .closeSend c => (p.closeSend c).goto c .closed
  | .tryDelete c => (p.tryDelete (roomID query c)).goto c .done
  | .pump c => p.setSend c { p.send c with queue := (p.send c).queue.tail }
  | .pumpFail c =>
    (p.setSend c { p.send c with queue := (p.send c).queue.tail }).setHandler c
      { p.handler c with pumping := false }
  | .pumpClose c => p.setHandler c { p.handler c with pumping := false }

def step (a : Action C Msg) : Option (Process C Msg) :=
  if p.enabled query a then some (p.perform query unmarshal a) else none

end Process

abbrev ProcessRun : List (Action C Msg) → Process C Msg → Prop :=
  Run (Process.step query unmarshal) .start

/-- Room object number `n` of `id` is at the address `addr id n`, and no other is. -/
structure Located (addr : String → ℕ → ℕ) (p : Process C Msg) (s : State C Msg) : Prop where
  rooms : ∀ id, p.rooms id = (s.rooms id).map (addr id)
  heap : ∀ id n, n < s.created id → p.heap (addr id n) = s.heap id n
  below : ∀ id n, n < s.created id → addr id n < p.allocated
  apart : ∀ id n id' n', n < s.created id → n' < s.created id' → addr id n = addr id' n' →
    id = id' ∧ n = n'
  handler : ∀ c, p.handler c = { s.handler c with rm := (p.handler c).rm }
  rm : ∀ c, 2 ≤ (s.handler c).pc.rank → (p.handler c).rm = addr (roomID query c) (s.handler c).rm
  send : p.send = s.send
  panicked : p.panicked = s.panicked

variable {query unmarshal} {as : List (Action C Msg)} {p p' : Process C Msg} {s : State C Msg}
variable {a : Action C Msg} {addr : String → ℕ → ℕ} {c : C}

section Rooms
omit [DecidableEq C]

theorem Located.pc (h : Located query addr p s) (c : C) : (p.handler c).pc = (s.handler c).pc := by
  rw [h.handler]

theorem Located.roomOf (h : Located query addr p s) (ha : Allocated query s)
    (hc : 2 ≤ (s.handler c).pc.rank) : p.roomOf c = s.roomOf query c := by
  rw [Process.roomOf,h.rm c hc,h.heap _ _ (ha.held c hc)]
  rfl

theorem Located.panic (h : Located query addr p s) :
    Located query addr { p with panicked := true } { s with panicked := true } :=
  ⟨h.rooms,h.heap,h.below,h.apart,h.handler,h.rm,h.send,rfl⟩

theorem Located.updateRoomOf (h : Located query addr p s) (ha : Allocated query s)
    (hc : 2 ≤ (s.handler c).pc.rank) (f : Room C Msg → Room C Msg) :
    Located query addr (p.updateRoomOf c f) (s.updateRoomOf query c f) := by
  refine ⟨h.rooms,?_,h.below,h.apart,h.handler,h.rm,h.send,h.panicked⟩
  intro id n hn
  have hlt := ha.held c hc
  rw [Process.updateRoomOf,updateRoomOf_heap,h.roomOf ha hc,h.rm c hc]
  by_cases he : id = roomID query c ∧ n = (s.handler c).rm
  · obtain ⟨rfl,rfl⟩ := he
    simp [State.roomOf]
  · have hne : addr id n ≠ addr (roomID query c) (s.handler c).rm :=
      fun heq => he (h.apart _ _ _ _ hn hlt heq)
    simpa [hne,he] using h.heap id n hn

theorem Located.tryDelete (h : Located query addr p s) (ha : Allocated query s) (id : String) :
    Located query addr (p.tryDelete id) (s.tryDelete id) := by
  unfold Process.tryDelete State.tryDelete
  rw [h.rooms]
  cases hr : s.rooms id with
  | none => exact h
  | some n =>
    simp only [Option.map_some,h.heap id n (ha.listed id n hr)]
    split
    · refine ⟨?_,h.heap,h.below,h.apart,h.handler,h.rm,h.send,h.panicked⟩
      intro id'
      by_cases hid : id' = id
      · subst hid
        simp
      · simpa [hid] using h.rooms id'
    · exact h

/-- Where the room objects are once a new one has been made for an id. -/
def moved (addr : String → ℕ → ℕ) (p : Process C Msg) (s : State C Msg) (id : String) : String → ℕ → ℕ :=
  Function.update addr id (Function.update (addr id) (s.created id) p.allocated)

theorem moved_new (id : String) : moved addr p s id id (s.created id) = p.allocated := by
  simp [moved]

theorem moved_old {id id' : String} {n : ℕ} (hn : n < s.created id') :
    moved addr p s id id' n = addr id' n := by
  by_cases hid : id' = id
  · subst hid
    simp [moved,hn.ne]
  · simp [moved,hid]

theorem createRoom_cases {id id' : String} {n : ℕ} (hn : n < (s.createRoom id).created id') :
    (id' = id ∧ n = s.created id) ∨ n < s.created id' := by
  by_cases hid : id' = id
  · subst hid
    simp only [State.createRoom,Function.update_self] at hn
    rcases Nat.lt_succ_iff_lt_or_eq.mp hn with hn | hn
    · exact .inr hn
    · exact .inl ⟨rfl,hn⟩
  · simp only [State.createRoom,Function.update_of_ne hid] at hn
    exact .inr hn

theorem createRoom_heap (id id' : String) (n : ℕ) :
    (s.createRoom id).heap id' n = if id' = id ∧ n = s.created id then {} else s.heap id' n :=
  setRoom_heap s id id' (s.created id) n {}

theorem Located.createRoom (h : Located query addr p s) (ha : Allocated query s) (id : String) :
    Located query (moved addr p s id) (p.createRoom id) (s.createRoom id) := by
  have hnew : ∀ id' n, n < s.created id' → addr id' n ≠ p.allocated :=
    fun id' n hn => (h.below id' n hn).ne
  refine ⟨?_,?_,?_,?_,h.handler,?_,h.send,h.panicked⟩
  · intro id'
    by_cases hid : id' = id
    · subst hid
      simp [Process.createRoom,State.createRoom,moved_new]
    · simp only [Process.createRoom,State.createRoom,Function.update_of_ne hid,h.rooms id']
      cases hr : s.rooms id' with
      | none => rfl
      | some n => rw [Option.map_some,Option.map_some,moved_old (ha.listed id' n hr)]
  · intro id' n hn
    rw [createRoom_heap]
    rcases createRoom_cases hn with ⟨rfl,rfl⟩ | hlt
    · simp [Process.createRoom,moved_new]
    · have hold : ¬ (id' = id ∧ n = s.created id) := by
        rintro ⟨rfl,rfl⟩
        exact Nat.lt_irrefl _ hlt
      rw [if_neg hold,moved_old hlt,Process.createRoom]
      simpa [hnew id' n hlt] using h.heap id' n hlt
  · intro id' n hn
    rcases createRoom_cases hn with ⟨rfl,rfl⟩ | hn
    · simp [Process.createRoom,moved_new]
    · rw [moved_old hn]
      exact (h.below id' n hn).trans (Nat.lt_succ_self _)
  · intro id₁ n₁ id₂ n₂ h₁ h₂ heq
    rcases createRoom_cases h₁ with ⟨rfl,rfl⟩ | old₁ <;> rcases createRoom_cases h₂ with ⟨rfl,rfl⟩ | old₂
    · exact ⟨rfl,rfl⟩
    · rw [moved_new,moved_old old₂] at heq
      exact absurd heq.symm (hnew id₂ n₂ old₂)
    · rw [moved_new,moved_old old₁] at heq
      exact absurd heq (hnew id₁ n₁ old₁)
    · rw [moved_old old₁,moved_old old₂] at heq
      exact h.apart _ _ _ _ old₁ old₂ heq
  · intro c hc
    exact (h.rm c hc).trans (moved_old (ha.held c hc)).symm

theorem Located.enabled (h : Located query addr p s) (a : Action C Msg) :
    p.enabled query a = SignalServer.enabled query s a := by
  have hpumping : ∀ c, (p.handler c).pumping = (s.handler c).pumping := by
    intro c
    rw [h.handler]
  cases a <;> simp only [Process.enabled,SignalServer.enabled,h.pc,hpumping,h.send]

theorem located_start : Located query (fun _ n => n) (.start : Process C Msg) .start := by
  refine ⟨fun _ => rfl,?_,?_,?_,fun _ => rfl,?_,rfl,rfl⟩
  · intro id n hn
    cases hn
  · intro id n hn
    cases hn
  · intro id n id' n' hn
    cases hn
  · intro c hc
    exact absurd hc (by simp [State.start,Pc.rank])

end Rooms

theorem Located.setHandler (h : Located query addr p s) {hp hs : Handler Msg}
    (hhandler : hp = { hs with rm := hp.rm })
    (hrm : 2 ≤ hs.pc.rank → hp.rm = addr (roomID query c) hs.rm) :
    Located query addr (p.setHandler c hp) (s.setHandler c hs) := by
  refine ⟨h.rooms,h.heap,h.below,h.apart,?_,?_,h.send,h.panicked⟩
  · intro d
    by_cases hd : d = c
    · subst hd
      simpa [Process.setHandler] using hhandler
    · simpa [Process.setHandler,hd] using h.handler d
  · intro d
    by_cases hd : d = c
    · subst hd
      simpa [Process.setHandler] using hrm
    · simpa [Process.setHandler,hd] using h.rm d

theorem Located.goto (h : Located query addr p s) (pc : Pc)
    (hpc : 2 ≤ pc.rank → 2 ≤ (s.handler c).pc.rank) :
    Located query addr (p.goto c pc) (s.goto c pc) := by
  refine h.setHandler ?_ fun h2 => h.rm c (hpc h2)
  have hc := h.handler c
  generalize p.handler c = hp at hc ⊢
  rw [hc]

theorem Located.setSend (h : Located query addr p s) (ch : SendChan Msg) :
    Located query addr (p.setSend c ch) (s.setSend c ch) :=
  ⟨h.rooms,h.heap,h.below,h.apart,h.handler,h.rm,by simp only [Process.setSend,State.setSend,h.send],
    h.panicked⟩

theorem Located.trySend (h : Located query addr p s) (c : C) (msg : Msg) :
    Located query addr (p.trySend c msg) (s.trySend c msg) := by
  have hsend : p.send c = s.send c := congrFun h.send c
  unfold Process.trySend State.trySend
  rw [hsend]
  split
  · exact h.panic
  · cases (s.send c).queue.push? msg with
    | none => exact h
    | some q => exact h.setSend _

theorem Located.closeSend (h : Located query addr p s) (c : C) :
    Located query addr (p.closeSend c) (s.closeSend c) := by
  have hsend : p.send c = s.send c := congrFun h.send c
  unfold Process.closeSend State.closeSend
  rw [hsend]
  split
  · exact h.panic
  · exact h.setSend _

theorem Located.getOrCreate (h : Located query addr p s) (ha : Allocated query s) (c : C) :
    ∃ addr, Located query addr (p.getOrCreate query c) (s.getOrCreate query c) := by
  have hc := h.handler c
  unfold Process.getOrCreate State.getOrCreate
  rw [h.rooms]
  cases hr : s.rooms (roomID query c) with
  | some n =>
    refine ⟨addr,h.setHandler ?_ fun _ => rfl⟩
    rw [hc]
  | none =>
    refine ⟨_,(h.createRoom ha _).setHandler ?_ fun _ => (moved_new _).symm⟩
    rw [hc]

theorem Located.recv (h : Located query addr p s) (ha : Allocated query s)
    (hc : 2 ≤ (s.handler c).pc.rank) (raw : Msg) :
    Located query addr (p.recv query unmarshal c raw) (s.recv query unmarshal c raw) := by
  unfold Process.recv State.recv
  cases unmarshal raw with
  | none => exact h
  | some m =>
    have hcache : Located query addr (p.cacheOffer query unmarshal c raw)
        (s.cacheOffer query unmarshal c raw) := by
      unfold Process.cacheOffer State.cacheOffer
      split
      · exact h.updateRoomOf ha hc _
      · exact h
    have hslot : (p.cacheOffer query unmarshal c raw).roomOf c =
        (s.cacheOffer query unmarshal c raw).roomOf query c := by
      apply hcache.roomOf
      · exact ⟨by simpa using ha.held,by simpa using ha.listed⟩
      · simpa using hc
    simp only [State.forward,Process.deliver,State.deliver,hslot]
    cases ((s.cacheOffer query unmarshal c raw).roomOf query c).slot (Room.peerOf (role query c)) with
    | none => exact hcache
    | some target => exact hcache.trySend target raw

theorem Located.replayOffer (h : Located query addr p s) (c : C) :
    Located query addr (p.replayOffer c) (s.replayOffer c) := by
  have hcached : (p.handler c).cached = (s.handler c).cached := by rw [h.handler]
  unfold Process.replayOffer State.replayOffer
  rw [hcached]
  cases (s.handler c).cached with
  | none => exact h
  | some offer => exact h.trySend c offer

theorem Located.modify (h : Located query addr p s) (c : C) (f : Handler Msg → Handler Msg)
    (hf : ∀ (h : Handler Msg) n, f { h with rm := n } = { f h with rm := n })
    (hrm : ∀ h, (f h).rm = h.rm)
    (hpc : 2 ≤ (f (s.handler c)).pc.rank → 2 ≤ (s.handler c).pc.rank) :
    Located query addr (p.setHandler c (f (p.handler c))) (s.setHandler c (f (s.handler c))) := by
  refine h.setHandler ?_ fun h2 => ?_
  · rw [hrm,← hf,← h.handler]
  · rw [hrm,hrm]
    exact h.rm c (hpc h2)

theorem Located.perform (h : Located query addr p s) (ha : Allocated query s)
    (hen : SignalServer.enabled query s a = true) :
    ∃ addr, Located query addr (p.perform query unmarshal a) (SignalServer.perform query unmarshal s a) := by
  have hfound : ∀ {c : C} {pc : Pc}, (s.handler c).pc = pc → 2 ≤ pc.rank → 2 ≤ (s.handler c).pc.rank :=
    fun hpc h2 => by rwa [hpc]
  have hsend : ∀ c, p.send c = s.send c := fun c => congrFun h.send c
  cases a with
  | connect c => exact ⟨addr,h.goto .upgraded fun h2 => absurd h2 (by decide)⟩
  | getOrCreate c => exact h.getOrCreate ha c
  | set c =>
    simp only [SignalServer.enabled,decide_eq_true_eq] at hen
    have h2 := hfound hen (by decide)
    exact ⟨addr,(h.updateRoomOf ha h2 _).goto .registered fun _ => h2⟩
  | setName c now =>
    simp only [SignalServer.enabled,decide_eq_true_eq] at hen
    have h2 := hfound hen.1 (by decide)
    exact ⟨addr,(h.updateRoomOf ha h2 _).goto .named fun _ => h2⟩
  | spawnPump c =>
    simp only [SignalServer.enabled,decide_eq_true_eq] at hen
    have h2 : 2 ≤ (s.handler c).pc.rank := hen.elim (fun hn => hfound hn (by decide))
      fun hr => hfound hr.1 (by decide)
    exact ⟨addr,h.modify c (fun l => { l with
      pc := if role query c = .client then .spawned else .reading, pumping := true })
      (fun _ _ => rfl) (fun _ => rfl) fun _ => h2⟩
  | readCache c =>
    simp only [SignalServer.enabled,decide_eq_true_eq] at hen
    have h2 := hfound hen (by decide)
    simp only [Process.perform,SignalServer.perform,h.roomOf ha h2]
    exact ⟨addr,h.modify c (fun l => { l with
      pc := .cacheRead, cached := (s.roomOf query c).offerCache })
      (fun _ _ => rfl) (fun _ => rfl) fun _ => h2⟩
  | replayOffer c =>
    simp only [SignalServer.enabled,decide_eq_true_eq] at hen
    have h2 := hfound hen (by decide)
    exact ⟨addr,(h.replayOffer c).goto .reading fun _ => by rwa [replayOffer_handler]⟩
  | recv c raw =>
    simp only [SignalServer.enabled,decide_eq_true_eq] at hen
    exact ⟨addr,h.recv ha (hfound hen (by decide)) raw⟩
  | clear c =>
    simp only [SignalServer.enabled,decide_eq_true_eq] at hen
    have h2 := hfound hen (by decide)
    exact ⟨addr,(h.updateRoomOf ha h2 _).goto .cleared fun _ => h2⟩
  | closeSend c =>
    simp only [SignalServer.enabled,decide_eq_true_eq] at hen
    have h2 := hfound hen (by decide)
    exact ⟨addr,(h.closeSend c).goto .closed fun _ => by rwa [closeSend_handler]⟩
  | tryDelete c =>
    simp only [SignalServer.enabled,decide_eq_true_eq] at hen
    have h2 := hfound hen (by decide)
    exact ⟨addr,(h.tryDelete ha _).goto .done fun _ => by rwa [tryDelete_handler]⟩
  | pump c =>
    simp only [Process.perform,SignalServer.perform,hsend]
    exact ⟨addr,h.setSend _⟩
  | pumpFail c =>
    simp only [Process.perform,SignalServer.perform,hsend]
    exact ⟨addr,(h.setSend (c := c) _).modify c (fun l => { l with pumping := false })
      (fun _ _ => rfl) (fun _ => rfl) id⟩
  | pumpClose c =>
    exact ⟨addr,h.modify c (fun l => { l with pumping := false }) (fun _ _ => rfl) (fun _ => rfl) id⟩

theorem located_step (h : Located query addr p s) (ha : Allocated query s) (a : Action C Msg) :
    (p.step query unmarshal a = none ∧ step query unmarshal s a = none) ∨
      ∃ addr p' s', p.step query unmarshal a = some p' ∧ step query unmarshal s a = some s' ∧
        Located query addr p' s' := by
  unfold Process.step step
  rw [h.enabled]
  by_cases hen : enabled query s a = true
  · obtain ⟨addr,hl⟩ : ∃ addr, Located query addr (p.perform query unmarshal a)
        (perform query unmarshal s a) := h.perform ha hen
    simp only [hen,if_true]
    exact .inr ⟨addr,_,_,rfl,rfl,hl⟩
  · simp [hen]

theorem located_of_processRun (h : ProcessRun query unmarshal as p) :
    ∃ addr s, ServerRun query unmarshal as s ∧ Located query addr p s := by
  induction h with
  | init => exact ⟨_,_,.init,located_start⟩
  | next _ hs ih =>
    obtain ⟨addr,s,hrun,hl⟩ := ih
    rcases located_step hl (allocated hrun) _ with ⟨hnone,_⟩ | ⟨addr,p',s',hp,hs',hl⟩
    · rw [hs] at hnone
      cases hnone
    · rw [hs] at hp
      cases hp
      exact ⟨addr,s',.next hrun hs',hl⟩

theorem located_of_serverRun (h : ServerRun query unmarshal as s) :
    ∃ addr p, ProcessRun query unmarshal as p ∧ Located query addr p s := by
  induction h with
  | init => exact ⟨_,_,.init,located_start⟩
  | next hrun hs ih =>
    obtain ⟨addr,p,hprun,hl⟩ := ih
    rcases located_step hl (allocated hrun) _ with ⟨_,hnone⟩ | ⟨addr,p',s',hp,hs',hl⟩
    · rw [hs] at hnone
      cases hnone
    · rw [hs] at hs'
      cases hs'
      exact ⟨addr,p',.next hprun hp,hl⟩

/-- Handlers of different rooms never hold the same room object. -/
theorem rm_ne_of_room_ne (h : ProcessRun query unmarshal as p) {c d : C}
    (hc : 2 ≤ (p.handler c).pc.rank) (hd : 2 ≤ (p.handler d).pc.rank)
    (hne : roomID query c ≠ roomID query d) : (p.handler c).rm ≠ (p.handler d).rm := by
  obtain ⟨addr,s,hrun,hl⟩ := located_of_processRun h
  rw [hl.pc] at hc hd
  have ha := allocated hrun
  rw [hl.rm c hc,hl.rm d hd]
  intro heq
  exact hne (hl.apart _ _ _ _ (ha.held c hc) (ha.held d hd) heq).1

end Machine

end SignalServer
end AnyKvm
