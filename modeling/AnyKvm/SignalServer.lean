import AnyKvm.Transition
import AnyKvm.BoundedQueue
import Mathlib.Logic.Function.Basic

/-! The signalling server of `signal/main.go` as a labelled machine.
Every critical section of a handler is one step, so a run is an interleaving of
any number of WebSocket handlers and of their write pumps. -/
namespace AnyKvm
namespace SignalServer

/-- The query parameters of a `/ws` request that `wsHandler` reads. -/
structure Query where
  room : String
  role : String
  name : String
  deriving DecidableEq, Repr

/-- The part of a signalling message that the server looks at. -/
structure SignalMsg where
  type : String
  deriving DecidableEq, Repr

inductive Role
  | device | client
  deriving DecidableEq, Repr

/-- The test `role == "device"` that picks the slot. -/
def roleOf (role : String) : Role := if role = "device" then .device else .client

/-- The checks of `wsHandler` before the upgrade, with the bodies of the rejections. -/
def validate (q : Query) : Except String Unit :=
  if q.room = "" then .error "\x7b\"error\":\"missing room\"\x7d"
  else if q.role ≠ "device" ∧ q.role ≠ "client" then
    .error "\x7b\"error\":\"role must be device or client\"\x7d"
  else .ok ()

/-- A `room` object. A zero `connectedAt` stands for the zero time. -/
structure Room (C Msg : Type*) where
  device : Option C := none
  client : Option C := none
  deviceName : String := ""
  connectedAt : ℕ := 0
  offerCache : Option Msg := none

/-- The `send` channel of a peer. -/
structure SendChan (Msg : Type*) where
  queue : BoundedQueue Msg 64 := .empty
  closed : Bool := false

/-- How far a handler has got in `wsHandler`. -/
inductive Pc
  | absent | upgraded | found | registered | named | spawned | cacheRead | reading
  | cleared | closed | done
  deriving DecidableEq, Repr

structure Handler (Msg : Type*) where
  pc : Pc := .absent
  rm : ℕ := 0
  cached : Option Msg := none
  pumping : Bool := false

/-- The process state. Room objects of one id are numbered in order of creation, and
`rooms` is the registry; `panicked` records a send on a closed channel. -/
structure State (C Msg : Type*) where
  rooms : String → Option ℕ
  created : String → ℕ
  heap : String → ℕ → Room C Msg
  handler : C → Handler Msg
  send : C → SendChan Msg
  panicked : Bool

def State.start {C Msg : Type*} : State C Msg where
  rooms := fun _ => none
  created := fun _ => 0
  heap := fun _ _ => {}
  handler := fun _ => {}
  send := fun _ => {}
  panicked := false

inductive Action (C Msg : Type*)
  | connect (c : C)
  | getOrCreate (c : C)
  | set (c : C)
  | setName (c : C) (now : ℕ)
  | spawnPump (c : C)
  | readCache (c : C)
  | replayOffer (c : C)
  | recv (c : C) (raw : Msg)
  | clear (c : C)
  | closeSend (c : C)
  | tryDelete (c : C)
  | pump (c : C)
  | pumpFail (c : C)
  | pumpClose (c : C)
  deriving DecidableEq

namespace Room
variable {C Msg : Type*}

def slot (r : Room C Msg) : Role → Option C
  | .device => r.device
  | .client => r.client

def set (r : Room C Msg) : Role → C → Room C Msg
  | .device, p => { r with device := some p }
  | .client, p => { r with client := some p }

def clear (r : Room C Msg) : Role → Room C Msg
  | .device => { r with device := none, offerCache := none }
  | .client => { r with client := none }

def isEmpty (r : Room C Msg) : Bool := r.device.isNone && r.client.isNone

def peerOf : Role → Role
  | .device => .client
  | .client => .device

theorem slot_set (r : Room C Msg) (ρ σ : Role) (p : C) :
    (r.set ρ p).slot σ = if ρ = σ then some p else r.slot σ := by
  cases ρ <;> cases σ <;> rfl

theorem slot_clear (r : Room C Msg) (ρ σ : Role) :
    (r.clear ρ).slot σ = if ρ = σ then none else r.slot σ := by
  cases ρ <;> cases σ <;> rfl

@[simp] theorem offerCache_set (r : Room C Msg) (ρ : Role) (p : C) :
    (r.set ρ p).offerCache = r.offerCache := by
  cases ρ <;> rfl

theorem offerCache_clear (r : Room C Msg) (ρ : Role) :
    (r.clear ρ).offerCache = if ρ = .device then none else r.offerCache := by
  cases ρ <;> rfl

theorem slot_of_isEmpty {r : Room C Msg} (h : r.isEmpty = true) (ρ : Role) : r.slot ρ = none := by
  simp only [isEmpty,Bool.and_eq_true,Option.isNone_iff_eq_none] at h
  cases ρ
  · exact h.1
  · exact h.2

end Room

section Machine
variable {C Msg : Type*} [DecidableEq C] (query : C → Query) (unmarshal : Msg → Option SignalMsg)

def roomID (c : C) : String := (query c).room

def role (c : C) : Role := roleOf (query c).role

/-- The test that `forward` applies to a device message before caching it. -/
def isOffer (raw : Msg) : Bool := (unmarshal raw).any fun m => m.type == "offer"

namespace State
variable (s : State C Msg)

def roomOf (c : C) : Room C Msg := s.heap (roomID query c) (s.handler c).rm

def setRoom (id : String) (n : ℕ) (r : Room C Msg) : State C Msg :=
  { s with heap := Function.update s.heap id (Function.update (s.heap id) n r) }

def updateRoomOf (c : C) (f : Room C Msg → Room C Msg) : State C Msg :=
  s.setRoom (roomID query c) (s.handler c).rm (f (s.roomOf query c))

def setHandler (c : C) (h : Handler Msg) : State C Msg :=
  { s with handler := Function.update s.handler c h }

def goto (c : C) (pc : Pc) : State C Msg := s.setHandler c { s.handler c with pc := pc }

def setSend (c : C) (ch : SendChan Msg) : State C Msg :=
  { s with send := Function.update s.send c ch }

/-- A non-blocking send: a full buffer drops the message, a closed channel panics. -/
def trySend (c : C) (msg : Msg) : State C Msg :=
  if (s.send c).closed then { s with panicked := true }
  else match (s.send c).queue.push? msg with
    | none => s
    | some q => s.setSend c { s.send c with queue := q }

def createRoom (id : String) : State C Msg :=
  { s.setRoom id (s.created id) {} with
    rooms := Function.update s.rooms id (some (s.created id)),
    created := Function.update s.created id (s.created id + 1) }

/-- `getOrCreate` returns the room object found under the id, or a new one. -/
def getOrCreate (c : C) : State C Msg :=
  match s.rooms (roomID query c) with
  | some n => s.setHandler c { s.handler c with pc := .found, rm := n }
  | none => (s.createRoom (roomID query c)).setHandler c
      { s.handler c with pc := .found, rm := s.created (roomID query c) }

/-- The first half of `forward`: cache a device offer for clients that connect later. -/
def cacheOffer (c : C) (raw : Msg) : State C Msg :=
  if role query c = .device ∧ isOffer unmarshal raw = true then
    s.updateRoomOf query c fun r => { r with offerCache := some raw }
  else s

/-- The second half of `forward`: hand the message to the opposite peer, if there is one. -/
def deliver (c : C) (raw : Msg) : State C Msg :=
  match (s.roomOf query c).slot (Room.peerOf (role query c)) with
  | none => s
  | some target => s.trySend target raw

def forward (c : C) (raw : Msg) : State C Msg :=
  (s.cacheOffer query unmarshal c raw).deliver query c raw

/-- The read loop ignores what is not a JSON message. -/
def recv (c : C) (raw : Msg) : State C Msg :=
  match unmarshal raw with
  | none => s
  | some _ => s.forward query unmarshal c raw

/-- The offer read before is sent to the client's own channel, outside of the lock. -/
def replayOffer (c : C) : State C Msg :=
  match (s.handler c).cached with
  | none => s
  | some offer => s.trySend c offer

/-- Closing a channel twice panics as well. -/
def closeSend (c : C) : State C Msg :=
  if (s.send c).closed then { s with panicked := true }
  else s.setSend c { s.send c with closed := true }

/-- Delete the room now registered under the id if both of its slots are free. -/
def tryDelete (id : String) : State C Msg :=
  match s.rooms id with
  | none => s
  | some n =>
    if (s.heap id n).isEmpty then { s with rooms := Function.update s.rooms id none } else s

end State

def Action.actor : Action C Msg → C
  | .connect c | .getOrCreate c | .set c | .setName c _ | .spawnPump c | .readCache c
  | .replayOffer c | .recv c _ | .clear c | .closeSend c | .tryDelete c
  | .pump c | .pumpFail c | .pumpClose c => c

/-- The point of `wsHandler`, or of its write pump, at which an action can happen. `connect` stands
for an accepted upgrade, `recv` for a message read from the socket, and `clear` for the start of the
deferred cleanup after the read loop has ended. -/
def enabled (s : State C Msg) : Action C Msg → Bool
  | .connect c => (s.handler c).pc = .absent ∧ (validate (query c)).isOk
  | .getOrCreate c => (s.handler c).pc = .upgraded
  | .set c => (s.handler c).pc = .found
  | .setName c _ => (s.handler c).pc = .registered ∧ role query c = .device
  | .spawnPump c => (s.handler c).pc = .named ∨ (s.handler c).pc = .registered ∧ role query c = .client
  | .readCache c => (s.handler c).pc = .spawned
  | .replayOffer c => (s.handler c).pc = .cacheRead
  | .recv c _ => (s.handler c).pc = .reading
  | .clear c => (s.handler c).pc = .reading
  | .closeSend c => (s.handler c).pc = .cleared
  | .tryDelete c => (s.handler c).pc = .closed
  | .pump c => (s.handler c).pumping ∧ (s.send c).queue.items ≠ []
  | .pumpFail c => (s.handler c).pumping ∧ (s.send c).queue.items ≠ []
  | .pumpClose c => (s.handler c).pumping ∧ (s.send c).closed ∧ (s.send c).queue.items = []

def perform (s : State C Msg) : Action C Msg → State C Msg
  | .connect c => s.goto c .upgraded
  | .getOrCreate c => s.getOrCreate query c
  | .set c => (s.updateRoomOf query c fun r => r.set (role query c) c).goto c .registered
  | .setName c now =>
    (s.updateRoomOf query c fun r =>
      { r with deviceName := if (query c).name = "" then roomID query c else (query c).name,
               connectedAt := now }).goto c .named
  | .spawnPump c => s.setHandler c { s.handler c with
      pc := if role query c = .client then .spawned else .reading, pumping := true }
  | .readCache c =>
    s.setHandler c { s.handler c with pc := .cacheRead, cached := (s.roomOf query c).offerCache }
  | .replayOffer c => (s.replayOffer c).goto c .reading
  | .recv c raw => s.recv query unmarshal c raw
  | .clear c => (s.updateRoomOf query c fun r => r.clear (role query c)).goto c .cleared
  | .closeSend c => (s.closeSend c).goto c .closed
  | .tryDelete c => (s.tryDelete (roomID query c)).goto c .done
  | .pump c => s.setSend c { s.send c with queue := (s.send c).queue.tail }
  | .pumpFail c =>
    (s.setSend c { s.send c with queue := (s.send c).queue.tail }).setHandler c
      { s.handler c with pumping := false }
  | .pumpClose c => s.setHandler c { s.handler c with pumping := false }

def step (s : State C Msg) (a : Action C Msg) : Option (State C Msg) :=
  if enabled query s a then some (perform query unmarshal s a) else none

abbrev ServerRun : List (Action C Msg) → State C Msg → Prop :=
  Transition.Run (step query unmarshal) State.start

section Registry
variable (s : State C Msg) (c : C)
omit [DecidableEq C]

@[simp] theorem setRoom_rooms (id : String) (n : ℕ) (r : Room C Msg) : (s.setRoom id n r).rooms = s.rooms := rfl
@[simp] theorem setRoom_created (id : String) (n : ℕ) (r : Room C Msg) : (s.setRoom id n r).created = s.created := rfl
@[simp] theorem setRoom_handler (id : String) (n : ℕ) (r : Room C Msg) : (s.setRoom id n r).handler = s.handler := rfl
@[simp] theorem setRoom_send (id : String) (n : ℕ) (r : Room C Msg) : (s.setRoom id n r).send = s.send := rfl

theorem setRoom_heap (id id' : String) (n n' : ℕ) (r : Room C Msg) :
    (s.setRoom id n r).heap id' n' = if id' = id ∧ n' = n then r else s.heap id' n' := by
  by_cases hid : id' = id
  · subst hid
    by_cases hn : n' = n <;> simp [State.setRoom,Function.update,hn]
  · simp [State.setRoom,Function.update,hid]

@[simp] theorem updateRoomOf_rooms (f : Room C Msg → Room C Msg) :
    (s.updateRoomOf query c f).rooms = s.rooms := rfl
@[simp] theorem updateRoomOf_created (f : Room C Msg → Room C Msg) :
    (s.updateRoomOf query c f).created = s.created := rfl
@[simp] theorem updateRoomOf_handler (f : Room C Msg → Room C Msg) :
    (s.updateRoomOf query c f).handler = s.handler := rfl
@[simp] theorem updateRoomOf_send (f : Room C Msg → Room C Msg) :
    (s.updateRoomOf query c f).send = s.send := rfl

theorem updateRoomOf_heap (f : Room C Msg → Room C Msg) (id : String) (n : ℕ) :
    (s.updateRoomOf query c f).heap id n =
      if id = roomID query c ∧ n = (s.handler c).rm then f (s.heap id n) else s.heap id n := by
  rw [State.updateRoomOf,setRoom_heap]
  split
  · rename_i h
    rw [State.roomOf,h.1,h.2]
  · rfl

@[simp] theorem cacheOffer_rooms (raw : Msg) : (s.cacheOffer query unmarshal c raw).rooms = s.rooms := by
  unfold State.cacheOffer; split <;> rfl
@[simp] theorem cacheOffer_created (raw : Msg) : (s.cacheOffer query unmarshal c raw).created = s.created := by
  unfold State.cacheOffer; split <;> rfl
@[simp] theorem cacheOffer_handler (raw : Msg) : (s.cacheOffer query unmarshal c raw).handler = s.handler := by
  unfold State.cacheOffer; split <;> rfl
@[simp] theorem cacheOffer_send (raw : Msg) : (s.cacheOffer query unmarshal c raw).send = s.send := by
  unfold State.cacheOffer; split <;> rfl

@[simp] theorem tryDelete_created (id : String) : (s.tryDelete id).created = s.created := by
  unfold State.tryDelete; split <;> [rfl; split <;> rfl]
@[simp] theorem tryDelete_heap (id : String) : (s.tryDelete id).heap = s.heap := by
  unfold State.tryDelete; split <;> [rfl; split <;> rfl]
@[simp] theorem tryDelete_handler (id : String) : (s.tryDelete id).handler = s.handler := by
  unfold State.tryDelete; split <;> [rfl; split <;> rfl]
@[simp] theorem tryDelete_send (id : String) : (s.tryDelete id).send = s.send := by
  unfold State.tryDelete; split <;> [rfl; split <;> rfl]

theorem tryDelete_rooms (id id' : String) :
    (s.tryDelete id).rooms id' =
      if id' = id ∧ ∃ n, s.rooms id = some n ∧ (s.heap id n).isEmpty = true then none
      else s.rooms id' := by
  unfold State.tryDelete
  by_cases hid : id' = id
  · subst hid
    cases hr : s.rooms id' with
    | none => simp [hr]
    | some n => by_cases he : (s.heap id' n).isEmpty = true <;> simp [he,hr]
  · cases hr : s.rooms id with
    | none => simp [hid]
    | some n => by_cases he : (s.heap id n).isEmpty = true <;> simp [he,hid]

end Registry

section Frame
variable (s : State C Msg) (c : C)

@[simp] theorem setHandler_rooms (h : Handler Msg) : (s.setHandler c h).rooms = s.rooms := rfl
@[simp] theorem setHandler_created (h : Handler Msg) : (s.setHandler c h).created = s.created := rfl
@[simp] theorem setHandler_heap (h : Handler Msg) : (s.setHandler c h).heap = s.heap := rfl
@[simp] theorem setHandler_send (h : Handler Msg) : (s.setHandler c h).send = s.send := rfl
@[simp] theorem setHandler_handler (h : Handler Msg) :
    (s.setHandler c h).handler = Function.update s.handler c h := rfl

@[simp] theorem goto_rooms (pc : Pc) : (s.goto c pc).rooms = s.rooms := rfl
@[simp] theorem goto_created (pc : Pc) : (s.goto c pc).created = s.created := rfl
@[simp] theorem goto_heap (pc : Pc) : (s.goto c pc).heap = s.heap := rfl
@[simp] theorem goto_send (pc : Pc) : (s.goto c pc).send = s.send := rfl
@[simp] theorem goto_handler (pc : Pc) :
    (s.goto c pc).handler = Function.update s.handler c { s.handler c with pc := pc } := rfl

@[simp] theorem setSend_rooms (ch : SendChan Msg) : (s.setSend c ch).rooms = s.rooms := rfl
@[simp] theorem setSend_created (ch : SendChan Msg) : (s.setSend c ch).created = s.created := rfl
@[simp] theorem setSend_heap (ch : SendChan Msg) : (s.setSend c ch).heap = s.heap := rfl
@[simp] theorem setSend_handler (ch : SendChan Msg) : (s.setSend c ch).handler = s.handler := rfl

@[simp] theorem trySend_rooms (msg : Msg) : (s.trySend c msg).rooms = s.rooms := by
  unfold State.trySend; split <;> [rfl; split <;> rfl]
@[simp] theorem trySend_created (msg : Msg) : (s.trySend c msg).created = s.created := by
  unfold State.trySend; split <;> [rfl; split <;> rfl]
@[simp] theorem trySend_heap (msg : Msg) : (s.trySend c msg).heap = s.heap := by
  unfold State.trySend; split <;> [rfl; split <;> rfl]
@[simp] theorem trySend_handler (msg : Msg) : (s.trySend c msg).handler = s.handler := by
  unfold State.trySend; split <;> [rfl; split <;> rfl]

@[simp] theorem closeSend_rooms : (s.closeSend c).rooms = s.rooms := by
  unfold State.closeSend; split <;> rfl
@[simp] theorem closeSend_created : (s.closeSend c).created = s.created := by
  unfold State.closeSend; split <;> rfl
@[simp] theorem closeSend_heap : (s.closeSend c).heap = s.heap := by
  unfold State.closeSend; split <;> rfl
@[simp] theorem closeSend_handler : (s.closeSend c).handler = s.handler := by
  unfold State.closeSend; split <;> rfl

@[simp] theorem deliver_rooms (raw : Msg) : (s.deliver query c raw).rooms = s.rooms := by
  unfold State.deliver; split <;> simp
@[simp] theorem deliver_created (raw : Msg) : (s.deliver query c raw).created = s.created := by
  unfold State.deliver; split <;> simp
@[simp] theorem deliver_heap (raw : Msg) : (s.deliver query c raw).heap = s.heap := by
  unfold State.deliver; split <;> simp
@[simp] theorem deliver_handler (raw : Msg) : (s.deliver query c raw).handler = s.handler := by
  unfold State.deliver; split <;> simp

@[simp] theorem forward_rooms (raw : Msg) : (s.forward query unmarshal c raw).rooms = s.rooms := by
  simp [State.forward]
@[simp] theorem forward_created (raw : Msg) : (s.forward query unmarshal c raw).created = s.created := by
  simp [State.forward]
@[simp] theorem forward_handler (raw : Msg) : (s.forward query unmarshal c raw).handler = s.handler := by
  simp [State.forward]

@[simp] theorem recv_rooms (raw : Msg) : (s.recv query unmarshal c raw).rooms = s.rooms := by
  unfold State.recv; split <;> simp
@[simp] theorem recv_created (raw : Msg) : (s.recv query unmarshal c raw).created = s.created := by
  unfold State.recv; split <;> simp
@[simp] theorem recv_handler (raw : Msg) : (s.recv query unmarshal c raw).handler = s.handler := by
  unfold State.recv; split <;> simp

@[simp] theorem replayOffer_rooms : (s.replayOffer c).rooms = s.rooms := by
  unfold State.replayOffer; split <;> simp
@[simp] theorem replayOffer_created : (s.replayOffer c).created = s.created := by
  unfold State.replayOffer; split <;> simp
@[simp] theorem replayOffer_heap : (s.replayOffer c).heap = s.heap := by
  unfold State.replayOffer; split <;> simp
@[simp] theorem replayOffer_handler : (s.replayOffer c).handler = s.handler := by
  unfold State.replayOffer; split <;> simp

theorem forward_heap (raw : Msg) (id : String) (n : ℕ) :
    (s.forward query unmarshal c raw).heap id n =
      if (role query c = .device ∧ isOffer unmarshal raw = true) ∧
          id = roomID query c ∧ n = (s.handler c).rm then
        { s.heap id n with offerCache := some raw }
      else s.heap id n := by
  rw [State.forward,deliver_heap,State.cacheOffer]
  by_cases h : role query c = .device ∧ isOffer unmarshal raw = true
  · rw [if_pos h,updateRoomOf_heap]
    simp only [h,and_self,true_and]
  · rw [if_neg h,if_neg (fun hc => h hc.1)]

/-- A message that is no JSON has no type, so `recv` changes the cache exactly for offers. -/
theorem recv_heap (raw : Msg) (id : String) (n : ℕ) :
    (s.recv query unmarshal c raw).heap id n =
      if (role query c = .device ∧ isOffer unmarshal raw = true) ∧
          id = roomID query c ∧ n = (s.handler c).rm then
        { s.heap id n with offerCache := some raw }
      else s.heap id n := by
  unfold State.recv
  split
  · rename_i h
    simp [isOffer,h]
  · exact forward_heap query unmarshal s c raw id n

end Frame

/-- Where control goes when an action is performed at `pc` by a handler of role `ρ`. -/
def Action.next (ρ : Role) (pc : Pc) : Action C Msg → Pc
  | .connect _ => .upgraded
  | .getOrCreate _ => .found
  | .set _ => .registered
  | .setName _ _ => .named
  | .spawnPump _ => if ρ = .client then .spawned else .reading
  | .readCache _ => .cacheRead
  | .replayOffer _ => .reading
  | .clear _ => .cleared
  | .closeSend _ => .closed
  | .tryDelete _ => .done
  | .recv _ _ | .pump _ | .pumpFail _ | .pumpClose _ => pc

section Step
variable {query unmarshal} {s s' : State C Msg} {a : Action C Msg}

theorem step_eq_some :
    step query unmarshal s a = some s' ↔ enabled query s a = true ∧ perform query unmarshal s a = s' := by
  simp [step]

theorem getOrCreate_handler (c : C) :
    (s.getOrCreate query c).handler =
      Function.update s.handler c { s.handler c with
        pc := .found, rm := (s.rooms (roomID query c)).getD (s.created (roomID query c)) } := by
  cases h : s.rooms (roomID query c) <;> simp [State.getOrCreate,State.createRoom,h]

theorem getOrCreate_rooms (c : C) (id : String) :
    (s.getOrCreate query c).rooms id =
      if id = roomID query c then
        some ((s.rooms (roomID query c)).getD (s.created (roomID query c)))
      else s.rooms id := by
  by_cases hid : id = roomID query c
  · subst hid
    cases h : s.rooms (roomID query c) <;> simp [State.getOrCreate,State.createRoom,h]
  · cases h : s.rooms (roomID query c) <;> simp [State.getOrCreate,State.createRoom,h,hid]

theorem getOrCreate_created (c : C) (id : String) :
    (s.getOrCreate query c).created id =
      if s.rooms (roomID query c) = none ∧ id = roomID query c then s.created id + 1
      else s.created id := by
  by_cases hid : id = roomID query c
  · subst hid
    cases h : s.rooms (roomID query c) <;> simp [State.getOrCreate,State.createRoom,h]
  · cases h : s.rooms (roomID query c) <;> simp [State.getOrCreate,State.createRoom,h,hid]

theorem getOrCreate_heap (c : C) (id : String) (n : ℕ) :
    (s.getOrCreate query c).heap id n =
      if s.rooms (roomID query c) = none ∧ id = roomID query c ∧ n = s.created (roomID query c) then {}
      else s.heap id n := by
  cases h : s.rooms (roomID query c) with
  | none => simpa [State.getOrCreate,State.createRoom,h] using setRoom_heap s _ id _ n {}
  | some m => simp [State.getOrCreate,h]

theorem step_handler_ne (h : step query unmarshal s a = some s') {c : C} (hc : c ≠ a.actor) :
    s'.handler c = s.handler c := by
  obtain ⟨_,rfl⟩ := step_eq_some.mp h
  cases a <;> simp only [Action.actor] at hc <;> simp [perform,getOrCreate_handler,hc]

theorem step_pc (h : step query unmarshal s a = some s') :
    (s'.handler a.actor).pc = a.next (role query a.actor) (s.handler a.actor).pc := by
  obtain ⟨_,rfl⟩ := step_eq_some.mp h
  cases a <;> simp [perform,Action.actor,Action.next,getOrCreate_handler]
  rfl

theorem step_rm (h : step query unmarshal s a = some s') (c : C) (hne : a ≠ .getOrCreate c) :
    (s'.handler c).rm = (s.handler c).rm := by
  by_cases hc : c = a.actor
  · subst hc
    obtain ⟨_,rfl⟩ := step_eq_some.mp h
    cases a <;> simp_all [perform,Action.actor]
  · rw [step_handler_ne h hc]

theorem step_slot (h : step query unmarshal s a = some s') (id : String) (n : ℕ) (ρ : Role) :
    (s'.heap id n).slot ρ = match a with
      | .getOrCreate c =>
        if s.rooms (roomID query c) = none ∧ id = roomID query c ∧ n = s.created (roomID query c) then none
        else (s.heap id n).slot ρ
      | .set c =>
        if (id = roomID query c ∧ n = (s.handler c).rm) ∧ role query c = ρ then some c
        else (s.heap id n).slot ρ
      | .clear c =>
        if (id = roomID query c ∧ n = (s.handler c).rm) ∧ role query c = ρ then none
        else (s.heap id n).slot ρ
      | _ => (s.heap id n).slot ρ := by
  obtain ⟨_,rfl⟩ := step_eq_some.mp h
  cases a with
  | getOrCreate c =>
    simp only [perform,getOrCreate_heap]
    split <;> [cases ρ <;> rfl; rfl]
  | set c =>
    simp only [perform,goto_heap,updateRoomOf_heap]
    by_cases hc : id = roomID query c ∧ n = (s.handler c).rm <;> simp [hc,Room.slot_set]
  | clear c =>
    simp only [perform,goto_heap,updateRoomOf_heap]
    by_cases hc : id = roomID query c ∧ n = (s.handler c).rm <;> simp [hc,Room.slot_clear]
  | setName c now =>
    simp only [perform,goto_heap,updateRoomOf_heap]
    split <;> [cases ρ <;> rfl; rfl]
  | recv c raw =>
    simp only [perform,recv_heap]
    split <;> [cases ρ <;> rfl; rfl]
  | _ => simp [perform]

theorem step_offerCache (h : step query unmarshal s a = some s') (id : String) (n : ℕ) :
    (s'.heap id n).offerCache = match a with
      | .getOrCreate c =>
        if s.rooms (roomID query c) = none ∧ id = roomID query c ∧ n = s.created (roomID query c) then none
        else (s.heap id n).offerCache
      | .recv c raw =>
        if (role query c = .device ∧ isOffer unmarshal raw = true) ∧
            id = roomID query c ∧ n = (s.handler c).rm then some raw
        else (s.heap id n).offerCache
      | .clear c =>
        if (id = roomID query c ∧ n = (s.handler c).rm) ∧ role query c = .device then none
        else (s.heap id n).offerCache
      | _ => (s.heap id n).offerCache := by
  obtain ⟨_,rfl⟩ := step_eq_some.mp h
  cases a with
  | getOrCreate c =>
    simp only [perform,getOrCreate_heap]
    split <;> rfl
  | set c =>
    simp only [perform,goto_heap,updateRoomOf_heap]
    split <;> simp
  | clear c =>
    simp only [perform,goto_heap,updateRoomOf_heap]
    by_cases hc : id = roomID query c ∧ n = (s.handler c).rm <;> simp [hc,Room.offerCache_clear]
  | setName c now =>
    simp only [perform,goto_heap,updateRoomOf_heap]
    split <;> rfl
  | recv c raw =>
    simp only [perform,recv_heap]
    split <;> rfl
  | _ => simp [perform]

theorem step_rooms (h : step query unmarshal s a = some s') (id : String) :
    s'.rooms id = match a with
      | .getOrCreate c =>
        if id = roomID query c then some ((s.rooms (roomID query c)).getD (s.created (roomID query c)))
        else s.rooms id
      | .tryDelete c =>
        if id = roomID query c ∧ ∃ n, s.rooms (roomID query c) = some n ∧
            (s.heap (roomID query c) n).isEmpty = true then none
        else s.rooms id
      | _ => s.rooms id := by
  obtain ⟨_,rfl⟩ := step_eq_some.mp h
  cases a with
  | getOrCreate c => simp only [perform,getOrCreate_rooms]
  | tryDelete c => simp only [perform,goto_rooms,tryDelete_rooms]
  | _ => simp [perform]

end Step

end Machine

end SignalServer
end AnyKvm
