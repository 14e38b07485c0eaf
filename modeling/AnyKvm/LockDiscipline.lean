import Mathlib.Order.Fin.Basic
import Mathlib.Data.Fintype.EquivFin
import AnyKvm.LockOrder
import AnyKvm.RoomRegistry

/-! The handlers of `signal/main.go` with their locks.
`roomsMu` and the `mu` of every room object are taken and released in steps of their own, and the bodies
of the critical sections stand between them. Any number of connections and of requests are served. -/
namespace AnyKvm
namespace SignalServer
namespace Locks

open Transition LockOrder

/-- `roomsMu`, and the `mu` of a room object. -/
inductive Mutex
  | rooms
  | room (id : String) (n : ℕ)
  deriving DecidableEq, Repr

/-- A goroutine: `wsHandler` and the write pump of a connection, and the two handlers of requests. -/
inductive Thread (C H : Type*)
  | ws (c : C)
  | pump (c : C)
  | health (h : H)
  | agents (h : H)
  deriving DecidableEq, Repr

/-- Where `wsHandler` is between two of its critical sections or in one. `tryDelete` has points of its
own, as it takes the `mu` of the room it has found while it holds `roomsMu`. -/
inductive WsPoint (C Msg : Type*)
  | outside
  | wanting (a : SignalServer.Action C Msg) (m : Mutex)
  | entered (a : SignalServer.Action C Msg) (m : Mutex)
  | wantingRooms
  | lookingUp
  | wantingRoom (n : ℕ)
  | checking (n : ℕ)
  | checked (n : ℕ) (empty : Bool)
  | deciding (empty : Bool)
  | leaving (m : Mutex)

inductive HealthPoint
  | absent
  | wanting
  | entered
  | leaving (n : ℕ)
  | answered (n : ℕ)
  deriving DecidableEq, Repr

/-- Local variables of the loop of `agentsHandler`: the rooms still to come, and the entries so far. -/
structure Listing where
  todo : List String
  agents : List AgentInfo
  deriving DecidableEq, Repr

inductive AgentsPoint
  | absent
  | noContent
  | wanting
  | entered
  | ranging (l : Listing)
  | wantingRoom (id : String) (n : ℕ) (l : Listing)
  | reading (id : String) (n : ℕ) (l : Listing)
  | read (id : String) (n : ℕ) (info : Option AgentInfo) (l : Listing)
  | leaving (agents : List AgentInfo)
  | answered (agents : List AgentInfo)
  deriving DecidableEq, Repr

namespace WsPoint
variable {C Msg : Type*} (id : String)

def isOutside : WsPoint C Msg → Bool
  | outside => true
  | _ => false

def before (m : Mutex) : SignalServer.Action C Msg → WsPoint C Msg
  | .tryDelete _ => wantingRooms
  | a => wanting a m

def held : WsPoint C Msg → List Mutex
  | outside | wanting _ _ | wantingRooms => []
  | entered _ m | leaving m => [m]
  | lookingUp | wantingRoom _ | deciding _ => [.rooms]
  | checking n | checked n _ => [.room id n,.rooms]

def wants : WsPoint C Msg → Option Mutex
  | wanting _ m => some m
  | wantingRooms => some .rooms
  | wantingRoom n => some (.room id n)
  | _ => none

def locked : WsPoint C Msg → WsPoint C Msg
  | wanting a m => entered a m
  | wantingRooms => lookingUp
  | wantingRoom n => checking n
  | p => p

def unlocks : WsPoint C Msg → Option Mutex
  | checked n _ => some (.room id n)
  | leaving m => some m
  | _ => none

def unlocked : WsPoint C Msg → WsPoint C Msg
  | checked _ empty => deciding empty
  | leaving _ => outside
  | p => p

end WsPoint

namespace HealthPoint

def held : HealthPoint → List Mutex
  | entered | leaving _ => [.rooms]
  | _ => []

def wants : HealthPoint → Option Mutex
  | wanting => some .rooms
  | _ => none

def locked : HealthPoint → HealthPoint
  | wanting => entered
  | p => p

def unlocks : HealthPoint → Option Mutex
  | leaving _ => some .rooms
  | _ => none

def unlocked : HealthPoint → HealthPoint
  | leaving n => answered n
  | p => p

end HealthPoint

namespace AgentsPoint

def held : AgentsPoint → List Mutex
  | absent | noContent | wanting | answered _ => []
  | entered | ranging _ | wantingRoom _ _ _ | leaving _ => [.rooms]
  | reading id n _ | read id n _ _ => [.room id n,.rooms]

def wants : AgentsPoint → Option Mutex
  | wanting => some .rooms
  | wantingRoom id n _ => some (.room id n)
  | _ => none

def locked : AgentsPoint → AgentsPoint
  | wanting => entered
  | wantingRoom id n l => reading id n l
  | p => p

def unlocks : AgentsPoint → Option Mutex
  | read id n _ _ => some (.room id n)
  | leaving _ => some .rooms
  | _ => none

def unlocked : AgentsPoint → AgentsPoint
  | read _ _ info l => ranging { l with agents := l.agents ++ info.toList }
  | leaving agents => answered agents
  | p => p

end AgentsPoint

/-- The memory of the server, the keys of its registry, the holders of the locks, and where everybody
is. -/
structure State (C H Msg : Type*) where
  server : SignalServer.State C Msg
  keys : List String
  owner : Mutex → Option (Thread C H)
  ws : C → WsPoint C Msg
  health : H → HealthPoint
  agents : H → AgentsPoint

def State.start {C H Msg : Type*} : State C H Msg where
  server := .start
  keys := []
  owner := fun _ => none
  ws := fun _ => .outside
  health := fun _ => .absent
  agents := fun _ => .absent

/-- `free` is a step outside of all critical sections, `arrive` comes before the `Lock` of one, and
`run` goes on inside of one; `range` fixes the order in which the map is ranged over. -/
inductive Action (C H Msg : Type*)
  | free (a : SignalServer.Action C Msg)
  | arrive (a : SignalServer.Action C Msg)
  | request (t : Thread C H) (method : String)
  | lock (t : Thread C H)
  | run (t : Thread C H)
  | range (h : H) (order : List String)
  | unlock (t : Thread C H)

section Machine
variable {C H Msg : Type*} [DecidableEq C] [DecidableEq H]
  (query : C → Query) (unmarshal : Msg → Option SignalMsg)

/-- The lock of the critical section that an action of `wsHandler` is. -/
def section? (s : SignalServer.State C Msg) : SignalServer.Action C Msg → Option Mutex
  | .getOrCreate _ | .tryDelete _ => some .rooms
  | .set c | .setName c _ | .readCache c | .clear c => some (.room (roomID query c) (s.handler c).rm)
  | .recv c raw =>
    if (unmarshal raw).isSome then some (.room (roomID query c) (s.handler c).rm) else none
  | _ => none

/-- The goroutine whose code performs an action. -/
def threadOf : SignalServer.Action C Msg → Thread C H
  | .pump c | .pumpFail c | .pumpClose c => .pump c
  | a => .ws a.actor

def Action.actor : Action C H Msg → Thread C H
  | .free a => threadOf a
  | .arrive a => .ws a.actor
  | .request t _ | .lock t | .run t | .unlock t => t
  | .range h _ => .agents h

/-- The rest of `tryDelete`, once it is known whether the room is empty. -/
def finishDelete (server : SignalServer.State C Msg) (c : C) (empty : Bool) : SignalServer.State C Msg :=
  { server with
    rooms := if empty = true then Function.update server.rooms (roomID query c) none
      else server.rooms }.goto c .done

namespace State
variable (s : State C H Msg)

def held : Thread C H → List Mutex
  | .ws c => (s.ws c).held (roomID query c)
  | .pump _ => []
  | .health h => (s.health h).held
  | .agents h => (s.agents h).held

def wants : Thread C H → Option Mutex
  | .ws c => (s.ws c).wants (roomID query c)
  | .pump _ => none
  | .health h => (s.health h).wants
  | .agents h => (s.agents h).wants

def unlocks : Thread C H → Option Mutex
  | .ws c => (s.ws c).unlocks (roomID query c)
  | .pump _ => none
  | .health h => (s.health h).unlocks
  | .agents h => (s.agents h).unlocks

def setWs (c : C) (p : WsPoint C Msg) : State C H Msg := { s with ws := Function.update s.ws c p }

def setHealth (h : H) (p : HealthPoint) : State C H Msg :=
  { s with health := Function.update s.health h p }

def setAgents (h : H) (p : AgentsPoint) : State C H Msg :=
  { s with agents := Function.update s.agents h p }

def setOwner (m : Mutex) (t : Option (Thread C H)) : State C H Msg :=
  { s with owner := Function.update s.owner m t }

def locked : Thread C H → State C H Msg
  | .ws c => s.setWs c (s.ws c).locked
  | .pump _ => s
  | .health h => s.setHealth h (s.health h).locked
  | .agents h => s.setAgents h (s.agents h).locked

def unlocked : Thread C H → State C H Msg
  | .ws c => s.setWs c (s.ws c).unlocked
  | .pump _ => s
  | .health h => s.setHealth h (s.health h).unlocked
  | .agents h => s.setAgents h (s.agents h).unlocked

/-- The memory after a step that concerns a room id. -/
def withServer (id : String) (server : SignalServer.State C Msg) : State C H Msg :=
  { s with
    server := server
    keys := if (server.rooms id).isSome then s.keys.insert id else s.keys.erase id }

def runWs (c : C) : Option (State C H Msg) :=
  let id := roomID query c
  match s.ws c with
  | .entered a m => some ((s.withServer id (perform query unmarshal s.server a)).setWs c (.leaving m))
  | .lookingUp => match s.server.rooms id with
    | some n => some (s.setWs c (.wantingRoom n))
    | none => some ((s.withServer id (finishDelete query s.server c false)).setWs c (.leaving .rooms))
  | .checking n => some (s.setWs c (.checked n (s.server.heap id n).isEmpty))
  | .deciding empty =>
    some ((s.withServer id (finishDelete query s.server c empty)).setWs c (.leaving .rooms))
  | _ => none

/-- One step of `agentsHandler` inside its critical sections. A room that has been deleted is not
ranged over. -/
def runAgents (h : H) : Option (State C H Msg) :=
  match s.agents h with
  | .ranging ⟨id :: todo,agents⟩ => match s.server.rooms id with
    | some n => some (s.setAgents h (.wantingRoom id n ⟨todo,agents⟩))
    | none => some (s.setAgents h (.ranging ⟨todo,agents⟩))
  | .ranging ⟨[],agents⟩ => some (s.setAgents h (.leaving agents))
  | .reading id n l =>
    let rm := s.server.heap id n
    some (s.setAgents h (.read id n
      (if rm.device.isSome then some ⟨id,rm.deviceName,rm.connectedAt⟩ else none) l))
  | _ => none

end State

/-- Locks are not reentrant: `lock` needs a free one. -/
def step (s : State C H Msg) : Action C H Msg → Option (State C H Msg)
  | .free a =>
    if section? query unmarshal s.server a = none ∧
        (threadOf a = (Thread.ws a.actor : Thread C H) → (s.ws a.actor).isOutside = true) then
      (SignalServer.step query unmarshal s.server a).map fun server => { s with server := server }
    else none
  | .arrive a =>
    if enabled query s.server a = true ∧ (s.ws a.actor).isOutside = true then
      (section? query unmarshal s.server a).map fun m => s.setWs a.actor (.before m a)
    else none
  | .request (.health h) _ => if s.health h = .absent then some (s.setHealth h .wanting) else none
  | .request (.agents h) method =>
    if s.agents h = .absent then
      some (s.setAgents h (if method = "OPTIONS" then .noContent else .wanting))
    else none
  | .request _ _ => none
  | .lock t => (s.wants query t).bind fun m =>
    if s.owner m = none then some ((s.locked t).setOwner m (some t)) else none
  | .run (.ws c) => s.runWs query unmarshal c
  | .run (.pump _) => none
  | .run (.health h) =>
    if s.health h = .entered then some (s.setHealth h (.leaving s.keys.length)) else none
  | .run (.agents h) => s.runAgents h
  | .range h order =>
    if s.agents h = .entered ∧ order.Perm s.keys then some (s.setAgents h (.ranging ⟨order,[]⟩)) else none
  | .unlock t => (s.unlocks query t).map fun m => (s.unlocked t).setOwner m none

abbrev LocksRun : List (Action C H Msg) → State C H Msg → Prop :=
  Run (step query unmarshal) State.start

/-- `roomsMu` comes before the locks of the rooms, of which nobody takes two. -/
def Mutex.rank : Mutex → Fin 2
  | .rooms => 0
  | .room _ _ => 1

/-- A goroutine can go on: it has a step. -/
def CanStep (s : State C H Msg) (t : Thread C H) : Prop :=
  ∃ a : Action C H Msg, a.actor = t ∧ (step query unmarshal s a).isSome = true

/-- The relation between goroutines that wait for each other. -/
abbrev Waits (s : State C H Msg) : Thread C H → Thread C H → Prop :=
  WaitsFor (fun t m => s.owner m = some t) fun t m => s.wants query t = some m

/-- No handlers wait for each other in a circle, and while one of them waits for a lock, the waiting
ends at a holder of a lock that can go on. -/
structure DeadlockFree (s : State C H Msg) : Prop where
  acyclic : ∀ t, ¬ Relation.TransGen (Waits query s) t t
  progress : ∀ t m u, s.wants query t = some m → s.owner m = some u →
    ∃ v m', Relation.ReflTransGen (Waits query s) u v ∧ s.owner m' = some v ∧
      CanStep query unmarshal s v

theorem rooms_lt_room (id : String) (n : ℕ) : Mutex.rooms.rank < (Mutex.room id n).rank :=
  show (0 : Fin 2) < 1 by decide

section Points
variable {id : String} {m m' : Mutex}
omit [DecidableEq C]

theorem WsPoint.held_locked {p : WsPoint C Msg} (h : p.wants id = some m) :
    p.locked.held id = m :: p.held id := by
  cases p <;> simp_all [wants,locked,held]

theorem WsPoint.held_before (a : SignalServer.Action C Msg) : (WsPoint.before m a).held id = [] := by
  cases a <;> rfl

theorem WsPoint.held_of_isOutside {p : WsPoint C Msg} (h : p.isOutside = true) : p.held id = [] := by
  cases p <;> first | rfl | cases h

theorem WsPoint.held_unlocked {p : WsPoint C Msg} (h : p.unlocks id = some m) :
    p.held id = m :: p.unlocked.held id ∧ m ∉ p.unlocked.held id := by
  cases p <;> cases h <;> simp [unlocked,held]

theorem WsPoint.rank_lt {p : WsPoint C Msg} (hw : p.wants id = some m) (hh : m' ∈ p.held id) :
    m'.rank < m.rank := by
  cases p <;> cases hw <;> simp [held] at hh
  subst hh
  exact rooms_lt_room _ _

theorem HealthPoint.held_locked {p : HealthPoint} (h : p.wants = some m) :
    p.locked.held = m :: p.held := by
  cases p <;> simp_all [wants,locked,held]

theorem AgentsPoint.held_locked {p : AgentsPoint} (h : p.wants = some m) :
    p.locked.held = m :: p.held := by
  cases p <;> simp_all [wants,locked,held]

theorem HealthPoint.held_unlocked {p : HealthPoint} (h : p.unlocks = some m) :
    p.held = m :: p.unlocked.held ∧ m ∉ p.unlocked.held := by
  cases p <;> cases h
  simp [unlocked,held]

theorem AgentsPoint.held_unlocked {p : AgentsPoint} (h : p.unlocks = some m) :
    p.held = m :: p.unlocked.held ∧ m ∉ p.unlocked.held := by
  cases p <;> cases h <;> simp [unlocked,held]

theorem HealthPoint.rank_lt {p : HealthPoint} (hw : p.wants = some m) (hh : m' ∈ p.held) :
    m'.rank < m.rank := by
  cases p <;> cases hw
  cases hh

theorem AgentsPoint.rank_lt {p : AgentsPoint} (hw : p.wants = some m) (hh : m' ∈ p.held) :
    m'.rank < m.rank := by
  cases p <;> cases hw <;> simp [held] at hh
  subst hh
  exact rooms_lt_room _ _

end Points

section State
variable {query} (s : State C H Msg)

section Holders
omit [DecidableEq C] [DecidableEq H]

@[simp] theorem held_setOwner (m : Mutex) (t : Option (Thread C H)) :
    (s.setOwner m t).held query = s.held query := by
  funext u
  cases u <;> rfl

@[simp] theorem held_withServer (id : String) (server : SignalServer.State C Msg) :
    (s.withServer id server).held query = s.held query := by
  funext u
  cases u <;> rfl

theorem rank_lt {s : State C H Msg} {t : Thread C H} {m m' : Mutex} (hw : s.wants query t = some m)
    (hh : m' ∈ s.held query t) : m'.rank < m.rank := by
  cases t with
  | ws c => exact WsPoint.rank_lt hw hh
  | pump c => cases hw
  | health g => exact HealthPoint.rank_lt hw hh
  | agents g => exact AgentsPoint.rank_lt hw hh

end Holders

theorem held_setWs (c : C) (p : WsPoint C Msg) : (s.setWs c p).held query =
    Function.update (s.held query) (.ws c) (p.held (roomID query c)) := by
  funext u
  cases u with
  | ws d => by_cases h : d = c <;> simp [State.held,State.setWs,Function.update,h]
  | _ => rfl

theorem held_setHealth (h : H) (p : HealthPoint) : (s.setHealth h p).held query =
    Function.update (s.held query) (.health h) p.held := by
  funext u
  cases u with
  | health g => by_cases hg : g = h <;> simp [State.held,State.setHealth,Function.update,hg]
  | _ => rfl

theorem held_setAgents (h : H) (p : AgentsPoint) : (s.setAgents h p).held query =
    Function.update (s.held query) (.agents h) p.held := by
  funext u
  cases u with
  | agents g => by_cases hg : g = h <;> simp [State.held,State.setAgents,Function.update,hg]
  | _ => rfl

variable {s} {t : Thread C H} {m m' : Mutex}

theorem held_locked (h : s.wants query t = some m) :
    (s.locked t).held query = Function.update (s.held query) t (m :: s.held query t) := by
  cases t with
  | ws c =>
    rw [State.locked,held_setWs,WsPoint.held_locked h]
    rfl
  | pump c => cases h
  | health g =>
    rw [State.locked,held_setHealth,HealthPoint.held_locked h]
    rfl
  | agents g =>
    rw [State.locked,held_setAgents,AgentsPoint.held_locked h]
    rfl

theorem held_unlocked (h : s.unlocks query t = some m) : ∃ rest, s.held query t = m :: rest ∧ m ∉ rest ∧
    (s.unlocked t).held query = Function.update (s.held query) t rest := by
  cases t with
  | ws c =>
    obtain ⟨hheld,hm⟩ := WsPoint.held_unlocked h
    exact ⟨_,hheld,hm,held_setWs s c _⟩
  | pump c => cases h
  | health g =>
    obtain ⟨hheld,hm⟩ := HealthPoint.held_unlocked h
    exact ⟨_,hheld,hm,held_setHealth s g _⟩
  | agents g =>
    obtain ⟨hheld,hm⟩ := AgentsPoint.held_unlocked h
    exact ⟨_,hheld,hm,held_setAgents s g _⟩

end State

section Steps
variable {query unmarshal} {s s' : State C H Msg} {a : Action C H Msg} {as : List (Action C H Msg)}

theorem runWs_held {c : C} (h : s.runWs query unmarshal c = some s') :
    s'.owner = s.owner ∧ s'.held query = s.held query := by
  have hset : ∀ (u : State C H Msg) (p : WsPoint C Msg), u.owner = s.owner → u.held query = s.held query →
      p.held (roomID query c) = (s.ws c).held (roomID query c) →
      (u.setWs c p).owner = s.owner ∧ (u.setWs c p).held query = s.held query := by
    intro u p howner hheld hp
    refine ⟨howner,?_⟩
    rw [held_setWs,hheld,hp]
    exact Function.update_eq_self (Thread.ws c) (s.held query)
  unfold State.runWs at h
  simp only at h
  split at h
  · rename_i b m hpoint
    cases h
    exact hset _ _ rfl (held_withServer s _ _) (by rw [hpoint]; rfl)
  · rename_i hpoint
    split at h <;> cases h
    · exact hset _ _ rfl rfl (by rw [hpoint]; rfl)
    · exact hset _ _ rfl (held_withServer s _ _) (by rw [hpoint]; rfl)
  · rename_i n hpoint
    cases h
    exact hset _ _ rfl rfl (by rw [hpoint]; rfl)
  · rename_i empty hpoint
    cases h
    exact hset _ _ rfl (held_withServer s _ _) (by rw [hpoint]; rfl)
  · cases h

theorem setHealth_held {h : H} {p : HealthPoint} (hp : p.held = (s.health h).held) :
    (s.setHealth h p).held query = s.held query := by
  rw [held_setHealth,hp]
  exact Function.update_eq_self (Thread.health h) (s.held query)

theorem setAgents_held {h : H} {p : AgentsPoint} (hp : p.held = (s.agents h).held) :
    (s.setAgents h p).held query = s.held query := by
  rw [held_setAgents,hp]
  exact Function.update_eq_self (Thread.agents h) (s.held query)

theorem runAgents_held {h : H} (hs : s.runAgents h = some s') :
    s'.owner = s.owner ∧ s'.held query = s.held query := by
  unfold State.runAgents at hs
  split at hs
  · rename_i id todo agents hpoint
    split at hs <;> cases hs
    · exact ⟨rfl,setAgents_held (by rw [hpoint]; rfl)⟩
    · exact ⟨rfl,setAgents_held (by rw [hpoint]; rfl)⟩
  · rename_i agents hpoint
    cases hs
    exact ⟨rfl,setAgents_held (by rw [hpoint]; rfl)⟩
  · rename_i id n l hpoint
    cases hs
    exact ⟨rfl,setAgents_held (by rw [hpoint]; rfl)⟩
  · cases hs

theorem free_held {b : SignalServer.Action C Msg} (h : step query unmarshal s (.free b) = some s') :
    s'.owner = s.owner ∧ s'.held query = s.held query := by
  obtain ⟨_,h⟩ := Option.ite_none_right_eq_some.mp h
  obtain ⟨server,-,rfl⟩ := Option.map_eq_some_iff.mp h
  refine ⟨rfl,?_⟩
  funext u
  cases u <;> rfl

theorem arrive_held {b : SignalServer.Action C Msg} (h : step query unmarshal s (.arrive b) = some s') :
    s'.owner = s.owner ∧ s'.held query = s.held query := by
  obtain ⟨hb,h⟩ := Option.ite_none_right_eq_some.mp h
  obtain ⟨m,-,rfl⟩ := Option.map_eq_some_iff.mp h
  refine ⟨rfl,?_⟩
  rw [held_setWs,WsPoint.held_before,← WsPoint.held_of_isOutside hb.2]
  exact Function.update_eq_self (Thread.ws b.actor) (s.held query)

theorem request_held {t : Thread C H} {method : String}
    (h : step query unmarshal s (.request t method) = some s') :
    s'.owner = s.owner ∧ s'.held query = s.held query := by
  cases t with
  | ws c => cases h
  | pump c => cases h
  | health g =>
    obtain ⟨hpoint,h⟩ := Option.ite_none_right_eq_some.mp h
    cases h
    exact ⟨rfl,setHealth_held (by rw [hpoint]; rfl)⟩
  | agents g =>
    obtain ⟨hpoint,h⟩ := Option.ite_none_right_eq_some.mp h
    cases h
    refine ⟨rfl,setAgents_held ?_⟩
    rw [hpoint]
    split <;> rfl

theorem run_held {t : Thread C H} (h : step query unmarshal s (.run t) = some s') :
    s'.owner = s.owner ∧ s'.held query = s.held query := by
  cases t with
  | ws c => exact runWs_held h
  | pump c => cases h
  | health g =>
    obtain ⟨hpoint,h⟩ := Option.ite_none_right_eq_some.mp h
    cases h
    exact ⟨rfl,setHealth_held (by rw [hpoint]; rfl)⟩
  | agents g => exact runAgents_held h

theorem range_held {g : H} {order : List String} (h : step query unmarshal s (.range g order) = some s') :
    s'.owner = s.owner ∧ s'.held query = s.held query := by
  obtain ⟨hpoint,h⟩ := Option.ite_none_right_eq_some.mp h
  cases h
  exact ⟨rfl,setAgents_held (by rw [hpoint.1]; rfl)⟩

/-- A step leaves the locks alone, takes a free one, or releases the one that was taken last. -/
theorem step_locks (h : step query unmarshal s a = some s') :
    (s'.owner = s.owner ∧ s'.held query = s.held query) ∨
    (∃ t m, s.wants query t = some m ∧ s.owner m = none ∧
      s'.owner = Function.update s.owner m (some t) ∧
      s'.held query = Function.update (s.held query) t (m :: s.held query t)) ∨
    ∃ t m rest, s.held query t = m :: rest ∧ m ∉ rest ∧
      s'.owner = Function.update s.owner m none ∧
      s'.held query = Function.update (s.held query) t rest := by
  cases a with
  | free b => exact .inl (free_held h)
  | arrive b => exact .inl (arrive_held h)
  | request t method => exact .inl (request_held h)
  | run t => exact .inl (run_held h)
  | range g order => exact .inl (range_held h)
  | lock t =>
    obtain ⟨m,hm,h⟩ := Option.bind_eq_some_iff.mp h
    obtain ⟨hfree,h⟩ := Option.ite_none_right_eq_some.mp h
    cases h
    refine .inr (.inl ⟨t,m,hm,hfree,?_,?_⟩)
    · cases t <;> rfl
    · rw [held_setOwner,held_locked hm]
  | unlock t =>
    obtain ⟨m,hm,rfl⟩ := Option.map_eq_some_iff.mp h
    obtain ⟨rest,hheld,hrest,hunlocked⟩ := held_unlocked hm
    refine .inr (.inr ⟨t,m,rest,hheld,hrest,?_,?_⟩)
    · cases t <;> rfl
    · rw [held_setOwner,hunlocked]

theorem agrees_step (h : Agrees s.owner (s.held query)) (hs : step query unmarshal s a = some s') :
    Agrees s'.owner (s'.held query) := by
  rcases step_locks hs with ⟨howner,hheld⟩ | ⟨t,m,-,hfree,howner,hheld⟩ | ⟨t,m,rest,ht,hm,howner,hheld⟩
  · rw [howner,hheld]
    exact h
  · rw [howner,hheld]
    exact h.lock hfree t
  · rw [howner,hheld]
    exact h.unlock ht hm

omit [DecidableEq C] [DecidableEq H] in
theorem agrees_start : Agrees (State.start : State C H Msg).owner
    ((State.start : State C H Msg).held query) := by
  intro m t
  refine iff_of_false (fun h => nomatch h) ?_
  cases t <;> exact List.not_mem_nil

/-- In every run the table of the holders agrees with the points. -/
theorem agrees (h : LocksRun query unmarshal as s) : Agrees s.owner (s.held query) :=
  h.invariant (P := fun _ s => Agrees s.owner (s.held query)) agrees_start
    fun _ _ _ _ _ ih hs => agrees_step ih hs

theorem canStep_lock {t : Thread C H} {m : Mutex} (hw : s.wants query t = some m)
    (hfree : s.owner m = none) : CanStep query unmarshal s t :=
  ⟨.lock t,rfl,by rw [step,hw,Option.bind_some,if_pos hfree]; rfl⟩

theorem canStep_unlock {t : Thread C H} {m : Mutex} (h : s.unlocks query t = some m) :
    CanStep query unmarshal s t :=
  ⟨.unlock t,rfl,by rw [step,h]; rfl⟩

theorem canStep_ws {c : C} {m : Mutex} (hheld : m ∈ (s.ws c).held (roomID query c))
    (hfree : ∀ m', (s.ws c).wants (roomID query c) = some m' → s.owner m' = none) :
    CanStep query unmarshal s (.ws c) := by
  have hrun : (s.runWs query unmarshal c).isSome = true →
      CanStep query unmarshal s (.ws c) := fun h => ⟨.run (.ws c),rfl,h⟩
  cases hpoint : s.ws c with
  | outside | wanting | wantingRooms =>
    rw [hpoint] at hheld
    cases hheld
  | entered a m => exact hrun (by simp only [State.runWs,hpoint]; rfl)
  | lookingUp =>
    refine hrun ?_
    simp only [State.runWs,hpoint]
    split <;> rfl
  | wantingRoom n =>
    have hwants : (s.ws c).wants (roomID query c) = some (.room (roomID query c) n) := by
      rw [hpoint]
      rfl
    exact canStep_lock (t := .ws c) hwants (hfree _ hwants)
  | checking n => exact hrun (by simp only [State.runWs,hpoint]; rfl)
  | checked n empty => exact canStep_unlock (t := .ws c) (by rw [State.unlocks,hpoint]; rfl)
  | deciding empty => exact hrun (by simp only [State.runWs,hpoint]; rfl)
  | leaving m => exact canStep_unlock (t := .ws c) (by rw [State.unlocks,hpoint]; rfl)

theorem canStep_health {g : H} {m : Mutex} (hheld : m ∈ (s.health g).held) :
    CanStep query unmarshal s (.health g) := by
  cases hpoint : s.health g with
  | absent | wanting | answered =>
    rw [hpoint] at hheld
    cases hheld
  | entered => exact ⟨.run (.health g),rfl,by rw [step,if_pos hpoint]; rfl⟩
  | leaving n => exact canStep_unlock (t := .health g) (by rw [State.unlocks,hpoint]; rfl)

theorem canStep_agents {g : H} {m : Mutex} (hheld : m ∈ (s.agents g).held)
    (hfree : ∀ m', (s.agents g).wants = some m' → s.owner m' = none) :
    CanStep query unmarshal s (.agents g) := by
  have hrun : (s.runAgents g).isSome = true →
      CanStep query unmarshal s (.agents g) := fun h => ⟨.run (.agents g),rfl,h⟩
  cases hpoint : s.agents g with
  | absent | noContent | wanting | answered =>
    rw [hpoint] at hheld
    cases hheld
  | entered => exact ⟨.range g s.keys,rfl,by rw [step,if_pos ⟨hpoint,List.Perm.refl _⟩]; rfl⟩
  | ranging l =>
    refine hrun ?_
    simp only [State.runAgents,hpoint]
    rcases l with ⟨_ | ⟨id,todo⟩,agents⟩
    · rfl
    · simp only
      split <;> rfl
  | wantingRoom id n l =>
    have hwants : (s.agents g).wants = some (.room id n) := by
      rw [hpoint]
      rfl
    exact canStep_lock (t := .agents g) hwants (hfree _ hwants)
  | reading id n l => exact hrun (by simp only [State.runAgents,hpoint]; rfl)
  | read id n info l => exact canStep_unlock (t := .agents g) (by rw [State.unlocks,hpoint]; rfl)
  | leaving agents => exact canStep_unlock (t := .agents g) (by rw [State.unlocks,hpoint]; rfl)

theorem canStep_of_holder {t : Thread C H} {m : Mutex} (hheld : m ∈ s.held query t)
    (hfree : ∀ u, ¬ Waits query s t u) :
    CanStep query unmarshal s t := by
  have hwants : ∀ m', s.wants query t = some m' → s.owner m' = none := by
    intro m' hw
    cases howner : s.owner m' with
    | none => rfl
    | some u => exact absurd ⟨m',hw,howner⟩ (hfree u)
  cases t with
  | ws c => exact canStep_ws hheld hwants
  | pump c => cases hheld
  | health g => exact canStep_health hheld
  | agents g => exact canStep_agents hheld hwants

theorem locks_deadlock_free (h : LocksRun query unmarshal as s) :
    DeadlockFree query unmarshal s := by
  have hagrees := agrees h
  have hordered : Ordered (fun t m => s.owner m = some t) (fun t m => s.wants query t = some m)
      Mutex.rank := by
    intro t m m' hw hh
    exact rank_lt hw ((hagrees m' t).mp hh)
  refine ⟨hordered.acyclic,?_⟩
  intro t m u hw hh
  obtain ⟨v,hchain,⟨m',hm'⟩,hfree⟩ := hordered.exists_unblocked ⟨m,hw,hh⟩
  exact ⟨v,m',hchain,hm',canStep_of_holder ((hagrees m' v).mp hm') hfree⟩

end Steps

end Machine

/-- The steps of one critical section of `wsHandler`. -/
def inSection (a : SignalServer.Action ℕ String) : List (Action ℕ ℕ String) :=
  [.arrive a,.lock (.ws a.actor),.run (.ws a.actor),.unlock (.ws a.actor)]

/-- While a device stores its name, the rooms are listed, and a health check comes. -/
def contention : List (Action ℕ ℕ String) :=
  [.free (.connect 0)] ++ inSection (.getOrCreate 0) ++ inSection (.set 0) ++
    [.arrive (.setName 0 7),.lock (.ws 0),.request (.agents 0) "GET",.lock (.agents 0),
      .range 0 ["kvm-room-1"],.run (.agents 0),.request (.health 0) "GET"]

theorem locks_deadlock_free_contention :
    ∃ s : State ℕ ℕ String, LocksRun pairQuery (fun _ => none) contention.reverse s ∧
      (s.wants pairQuery (.health 0) = some .rooms ∧ s.owner .rooms = some (.agents 0)) ∧
      (s.wants pairQuery (.agents 0) = some (.room "kvm-room-1" 0) ∧
        s.owner (.room "kvm-room-1" 0) = some (.ws 0)) ∧
      DeadlockFree pairQuery (fun _ => none) s := by
  obtain ⟨s,hrun,hp⟩ := exists_run_of_replay (step pairQuery fun _ => none) State.start contention
    (fun s => (s.wants pairQuery (.health 0) = some .rooms ∧ s.owner .rooms = some (.agents 0)) ∧
      (s.wants pairQuery (.agents 0) = some (.room "kvm-room-1" 0) ∧
        s.owner (.room "kvm-room-1" 0) = some (.ws 0))) (by decide +kernel)
  obtain ⟨hhealth,hagents⟩ := of_decide_eq_true hp
  exact ⟨s,hrun,hhealth,hagents,locks_deadlock_free hrun⟩

end Locks
end SignalServer
end AnyKvm
