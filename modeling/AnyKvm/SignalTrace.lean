import AnyKvm.ChannelSends

/-! The signalling server with messages that know where they come from.
The server treats messages as opaque values, so it runs alike on messages that carry the
connection and the moment of their reading; what it has enqueued is recorded beside it. -/
namespace AnyKvm

namespace BoundedQueue
variable {α β : Type*} {cap : ℕ}

def map (f : α → β) (q : BoundedQueue α cap) : BoundedQueue β cap :=
  ⟨q.items.map f,by rw [List.length_map]; exact q.length_le⟩

@[simp] theorem items_map (f : α → β) (q : BoundedQueue α cap) : (q.map f).items = q.items.map f := rfl

theorem push?_map (f : α → β) (q : BoundedQueue α cap) (a : α) :
    (q.map f).push? (f a) = (q.push? a).map (map f) := by
  unfold push?
  by_cases h : q.items.length < cap
  · have h' : (q.map f).items.length < cap := by rwa [items_map,List.length_map]
    rw [dif_pos h,dif_pos h']
    exact congrArg some (BoundedQueue.ext (by simp))
  · have h' : ¬ (q.map f).items.length < cap := by rwa [items_map,List.length_map]
    rw [dif_neg h,dif_neg h']
    rfl

theorem tail_map (f : α → β) (q : BoundedQueue α cap) : (q.map f).tail = q.tail.map f :=
  BoundedQueue.ext (by simp)

end BoundedQueue

namespace SignalServer

open Transition

section Map
variable {C Msg Msg' : Type*} [DecidableEq C] (f : Msg → Msg')

def Room.map (r : Room C Msg) : Room C Msg' :=
  ⟨r.device,r.client,r.deviceName,r.connectedAt,r.offerCache.map f⟩

def SendChan.map (ch : SendChan Msg) : SendChan Msg' := ⟨ch.queue.map f,ch.closed⟩

def Handler.map (h : Handler Msg) : Handler Msg' := ⟨h.pc,h.rm,h.cached.map f,h.pumping⟩

def State.map (s : State C Msg) : State C Msg' where
  rooms := s.rooms
  created := s.created
  heap := fun id n => (s.heap id n).map f
  handler := fun c => (s.handler c).map f
  send := fun c => (s.send c).map f
  panicked := s.panicked

def Action.map : Action C Msg → Action C Msg'
  | .connect c => .connect c
  | .getOrCreate c => .getOrCreate c
  | .set c => .set c
  | .setName c now => .setName c now
  | .spawnPump c => .spawnPump c
  | .readCache c => .readCache c
  | .replayOffer c => .replayOffer c
  | .recv c raw => .recv c (f raw)
  | .clear c => .clear c
  | .closeSend c => .closeSend c
  | .tryDelete c => .tryDelete c
  | .pump c => .pump c
  | .pumpFail c => .pumpFail c
  | .pumpClose c => .pumpClose c

variable {f} {query : C → Query} {unmarshal : Msg' → Option SignalMsg} (s : State C Msg) (c : C)

section Rooms
omit [DecidableEq C]

theorem Room.slot_map (r : Room C Msg) (ρ : Role) : (r.map f).slot ρ = r.slot ρ := by
  cases ρ <;> rfl

theorem Room.set_map (r : Room C Msg) (ρ : Role) (p : C) : (r.map f).set ρ p = (r.set ρ p).map f := by
  cases ρ <;> rfl

theorem Room.clear_map (r : Room C Msg) (ρ : Role) : (r.map f).clear ρ = (r.clear ρ).map f := by
  cases ρ <;> rfl

theorem State.roomOf_map : (s.map f).roomOf query c = (s.roomOf query c).map f := rfl

theorem State.setRoom_map (id : String) (n : ℕ) (r : Room C Msg) :
    (s.map f).setRoom id n (r.map f) = (s.setRoom id n r).map f := by
  simp only [State.setRoom,State.map,State.mk.injEq,true_and]
  refine ⟨?_,trivial⟩
  funext id' n'
  by_cases hid : id' = id
  · subst hid
    by_cases hn : n' = n
    · subst hn
      simp
    · simp [hn]
  · simp [hid]

theorem State.updateRoomOf_map (g : Room C Msg → Room C Msg) (g' : Room C Msg' → Room C Msg')
    (hg : ∀ r, g' (r.map f) = (g r).map f) :
    (s.map f).updateRoomOf query c g' = (s.updateRoomOf query c g).map f := by
  unfold State.updateRoomOf
  rw [State.roomOf_map,hg]
  exact setRoom_map s _ _ _

theorem State.tryDelete_map (id : String) : (s.map f).tryDelete id = (s.tryDelete id).map f := by
  unfold State.tryDelete
  have hrooms : (s.map f).rooms = s.rooms := rfl
  have hempty : ∀ n, ((s.map f).heap id n).isEmpty = (s.heap id n).isEmpty := fun _ => rfl
  rw [hrooms]
  cases s.rooms id with
  | none => rfl
  | some n =>
    simp only [hempty]
    split <;> rfl

theorem enabled_map (a : Action C Msg) : enabled query (s.map f) (a.map f) = enabled query s a := by
  have hitems : ∀ c, ((s.map f).send c).queue.items ≠ [] ↔ (s.send c).queue.items ≠ [] := by
    intro c
    simp [State.map,SendChan.map]
  have hempty : ∀ c, ((s.map f).send c).queue.items = [] ↔ (s.send c).queue.items = [] :=
    fun c => not_iff_not.mp (hitems c)
  cases a with
  | pump c => exact decide_eq_decide.mpr (and_congr_right fun _ => hitems c)
  | pumpFail c => exact decide_eq_decide.mpr (and_congr_right fun _ => hitems c)
  | pumpClose c =>
    exact decide_eq_decide.mpr (and_congr_right fun _ => and_congr_right fun _ => hempty c)
  | _ => rfl

end Rooms

theorem State.setHandler_map (h : Handler Msg) :
    (s.map f).setHandler c (h.map f) = (s.setHandler c h).map f := by
  simp only [State.setHandler,State.map,State.mk.injEq,true_and]
  refine ⟨?_,trivial⟩
  funext d
  by_cases hd : d = c
  · subst hd
    simp
  · simp [hd]

theorem State.setSend_map (ch : SendChan Msg) :
    (s.map f).setSend c (ch.map f) = (s.setSend c ch).map f := by
  simp only [State.setSend,State.map,State.mk.injEq,true_and]
  refine ⟨?_,trivial⟩
  funext d
  by_cases hd : d = c
  · subst hd
    simp
  · simp [hd]

theorem State.trySend_map (msg : Msg) : (s.map f).trySend c (f msg) = (s.trySend c msg).map f := by
  unfold State.trySend
  have hclosed : ((s.map f).send c).closed = (s.send c).closed := rfl
  have hpush : ((s.map f).send c).queue.push? (f msg) = ((s.send c).queue.push? msg).map (.map f) :=
    BoundedQueue.push?_map f _ msg
  rw [hclosed,hpush]
  split
  · rfl
  · cases (s.send c).queue.push? msg with
    | none => rfl
    | some q => exact setSend_map s c { s.send c with queue := q }

theorem State.recv_map (raw : Msg) :
    (s.map f).recv query unmarshal c (f raw) = (s.recv query (unmarshal ∘ f) c raw).map f := by
  have hcache : (s.map f).cacheOffer query unmarshal c (f raw) =
      (s.cacheOffer query (unmarshal ∘ f) c raw).map f := by
    unfold State.cacheOffer
    have hoffer : isOffer (unmarshal ∘ f) raw = isOffer unmarshal (f raw) := rfl
    rw [hoffer]
    split
    · exact updateRoomOf_map s c _ _ fun r => rfl
    · rfl
  unfold State.recv
  simp only [Function.comp_apply]
  cases unmarshal (f raw) with
  | none => rfl
  | some m =>
    simp only [State.forward,State.deliver,hcache,State.roomOf_map,Room.slot_map]
    cases ((s.cacheOffer query (unmarshal ∘ f) c raw).roomOf query c).slot
        (Room.peerOf (role query c)) with
    | none => rfl
    | some target => exact trySend_map _ _ _

theorem State.getOrCreate_map : (s.map f).getOrCreate query c = (s.getOrCreate query c).map f := by
  unfold State.getOrCreate
  have hrooms : (s.map f).rooms = s.rooms := rfl
  rw [hrooms]
  cases s.rooms (roomID query c) with
  | some n => exact setHandler_map s c { s.handler c with pc := .found, rm := n }
  | none =>
    have hroom : (s.map f).setRoom (roomID query c) (s.created (roomID query c)) {} =
        (s.setRoom (roomID query c) (s.created (roomID query c)) {}).map f := setRoom_map s _ _ {}
    have hcreate : (s.map f).createRoom (roomID query c) = (s.createRoom (roomID query c)).map f := by
      unfold State.createRoom
      have hcreated : (s.map f).created = s.created := rfl
      rw [hcreated,hroom]
      rfl
    simp only
    rw [hcreate]
    exact setHandler_map _ c { s.handler c with pc := .found, rm := s.created (roomID query c) }

theorem State.goto_map (pc : Pc) : (s.map f).goto c pc = (s.goto c pc).map f :=
  setHandler_map s c { s.handler c with pc := pc }

theorem State.replayOffer_map : (s.map f).replayOffer c = (s.replayOffer c).map f := by
  unfold State.replayOffer
  have hcached : ((s.map f).handler c).cached = (s.handler c).cached.map f := rfl
  rw [hcached]
  cases (s.handler c).cached with
  | none => rfl
  | some offer => exact trySend_map s c offer

theorem State.closeSend_map : (s.map f).closeSend c = (s.closeSend c).map f := by
  unfold State.closeSend
  have hclosed : ((s.map f).send c).closed = (s.send c).closed := rfl
  rw [hclosed]
  split
  · rfl
  · exact setSend_map s c { s.send c with closed := true }

theorem State.popSend_map :
    (s.map f).setSend c { (s.map f).send c with queue := ((s.map f).send c).queue.tail } =
      (s.setSend c { s.send c with queue := (s.send c).queue.tail }).map f := by
  have htail : ((s.map f).send c).queue.tail = (s.send c).queue.tail.map f := BoundedQueue.tail_map f _
  rw [htail]
  exact setSend_map s c { s.send c with queue := (s.send c).queue.tail }

theorem perform_map (a : Action C Msg) :
    perform query unmarshal (s.map f) (a.map f) = (perform query (unmarshal ∘ f) s a).map f := by
  cases a with
  | connect c => exact State.goto_map s c .upgraded
  | getOrCreate c => exact State.getOrCreate_map s c
  | set c =>
    simp only [Action.map,perform]
    rw [State.updateRoomOf_map s c (fun r => r.set (role query c) c) _ fun r => r.set_map _ c]
    exact State.goto_map _ c .registered
  | setName c now =>
    simp only [Action.map,perform]
    rw [State.updateRoomOf_map s c (fun r =>
      { r with deviceName := if (query c).name = "" then roomID query c else (query c).name,
               connectedAt := now }) _ fun r => rfl]
    exact State.goto_map _ c .named
  | spawnPump c =>
    exact State.setHandler_map s c { s.handler c with
      pc := if role query c = .client then .spawned else .reading, pumping := true }
  | readCache c =>
    exact State.setHandler_map s c { s.handler c with
      pc := .cacheRead, cached := (s.roomOf query c).offerCache }
  | replayOffer c =>
    simp only [Action.map,perform,State.replayOffer_map]
    exact State.goto_map _ c .reading
  | recv c raw => exact State.recv_map s c raw
  | clear c =>
    simp only [Action.map,perform]
    rw [State.updateRoomOf_map s c (fun r => r.clear (role query c)) _ fun r => r.clear_map _]
    exact State.goto_map _ c .cleared
  | closeSend c =>
    simp only [Action.map,perform,State.closeSend_map]
    exact State.goto_map _ c .closed
  | tryDelete c =>
    simp only [Action.map,perform,State.tryDelete_map]
    exact State.goto_map _ c .done
  | pump c => exact State.popSend_map s c
  | pumpFail c =>
    simp only [Action.map,perform,State.popSend_map]
    exact State.setHandler_map _ c { s.handler c with pumping := false }
  | pumpClose c => exact State.setHandler_map s c { s.handler c with pumping := false }

/-- A step does not look into the messages beyond what `unmarshal` tells of them. -/
theorem step_map (a : Action C Msg) :
    step query unmarshal (s.map f) (a.map f) = (step query (unmarshal ∘ f) s a).map (State.map f) := by
  unfold step
  rw [enabled_map,perform_map]
  split <;> rfl

end Map

/-- A message with the connection that it was read from and the number of steps taken before. -/
structure Stamped (C Msg : Type*) where
  reader : C
  time : ℕ
  raw : Msg
  deriving DecidableEq, Repr

/-- A message read at a step is stamped with its reader and the time. -/
def Action.stamp {C Msg : Type*} (now : ℕ) (a : Action C Msg) : Action C (Stamped C Msg) :=
  a.map fun raw => ⟨a.actor,now,raw⟩

/-- The offer of a device that an action makes known to a room object. -/
def offerTo {C Msg : Type*} (query : C → Query) (unmarshal : Msg → Option SignalMsg) (s : State C Msg)
    (id : String) (n : ℕ) : Action C Msg → Option Msg
  | .recv c raw =>
    if (role query c = .device ∧ isOffer unmarshal raw = true) ∧
        id = roomID query c ∧ n = (s.handler c).rm then some raw
    else none
  | _ => none

/-- The server on stamped messages, with its history: the number of steps taken, all that has been
enqueued to each connection (oldest first), the newest offer that each room object has seen, whether
an offer has been forwarded in the room of a client since it read the cache, and whether the offer
that a client finds in the cache has been forwarded straight to it. -/
structure Traced (C Msg : Type*) where
  server : State C (Stamped C Msg)
  now : ℕ
  received : C → List (Stamped C Msg)
  newest : String → ℕ → Option (Stamped C Msg)
  overtaken : C → Bool
  straight : C → Bool

def Traced.start {C Msg : Type*} : Traced C Msg where
  server := .start
  now := 0
  received := fun _ => []
  newest := fun _ _ => none
  overtaken := fun _ => false
  straight := fun _ => false

section Trace
variable {C Msg : Type*} [DecidableEq C] (query : C → Query) (unmarshal : Msg → Option SignalMsg)

abbrev unstamped : Stamped C Msg → Option SignalMsg := fun m => unmarshal m.raw

/-- An offer forwarded in the room of a handler. -/
def offerToRoomOf (s : State C (Stamped C Msg)) (c : C) (a : Action C (Stamped C Msg)) :
    Option (Stamped C Msg) :=
  offerTo query (unstamped unmarshal) s (roomID query c) (s.handler c).rm a

def nextOvertaken (s : State C (Stamped C Msg)) (before : Bool) (c : C) (a : Action C (Stamped C Msg)) :
    Bool :=
  match a with
  | .readCache d => if d = c then false else before
  | a => before || (offerToRoomOf query unmarshal s c a).isSome

/-- Until the client has read the cache, every change of the cache counts. -/
def nextStraight (s : State C (Stamped C Msg)) (before : Bool) (c : C) (a : Action C (Stamped C Msg)) :
    Bool :=
  if 6 ≤ (s.handler c).pc.rank then before
  else if (offerToRoomOf query unmarshal s c a).isSome then
    (enqueued query (unstamped unmarshal) s a c).isSome
  else match a with
    | .clear d =>
      if (roomID query c = roomID query d ∧ (s.handler c).rm = (s.handler d).rm) ∧
          role query d = .device then false
      else before
    | _ => before

def tracedStep (g : Traced C Msg) (a : Action C Msg) : Option (Traced C Msg) :=
  let a := a.stamp g.now
  (step query (unstamped unmarshal) g.server a).map fun server =>
    { server := server,
      now := g.now + 1,
      received := fun c => g.received c ++ (enqueued query (unstamped unmarshal) g.server a c).toList,
      newest := fun id n =>
        (offerTo query (unstamped unmarshal) g.server id n a).or (g.newest id n),
      overtaken := fun c => nextOvertaken query unmarshal g.server (g.overtaken c) c a,
      straight := fun c => nextStraight query unmarshal g.server (g.straight c) c a }

abbrev TracedRun : List (Action C Msg) → Traced C Msg → Prop := Run (tracedStep query unmarshal) .start

variable {query unmarshal} {as : List (Action C Msg)} {s : State C Msg} {g g' : Traced C Msg} {a : Action C Msg}

omit [DecidableEq C] in
theorem stamp_map (now : ℕ) (a : Action C Msg) : (a.stamp now).map Stamped.raw = a := by
  cases a <;> rfl

/-- What a step does to the server and to its history. -/
structure TracedStep (query : C → Query) (unmarshal : Msg → Option SignalMsg) (g : Traced C Msg)
    (a : Action C (Stamped C Msg)) (g' : Traced C Msg) : Prop where
  server : step query (unstamped unmarshal) g.server a = some g'.server
  now : g'.now = g.now + 1
  received : ∀ c, g'.received c =
    g.received c ++ (enqueued query (unstamped unmarshal) g.server a c).toList
  newest : ∀ id n, g'.newest id n =
    (offerTo query (unstamped unmarshal) g.server id n a).or (g.newest id n)
  overtaken : ∀ c, g'.overtaken c = nextOvertaken query unmarshal g.server (g.overtaken c) c a
  straight : ∀ c, g'.straight c = nextStraight query unmarshal g.server (g.straight c) c a

theorem tracedStep_spec (h : tracedStep query unmarshal g a = some g') :
    TracedStep query unmarshal g (a.stamp g.now) g' := by
  obtain ⟨server,hs,rfl⟩ := Option.map_eq_some_iff.mp h
  exact ⟨hs,rfl,fun _ => rfl,fun _ _ => rfl,fun _ => rfl,fun _ => rfl⟩

theorem step_unstamped :
    step query unmarshal (g.server.map Stamped.raw) a =
      (tracedStep query unmarshal g a).map fun g' => g'.server.map Stamped.raw := by
  have h : step query unmarshal (g.server.map Stamped.raw) ((a.stamp g.now).map Stamped.raw) =
      (step query (unmarshal ∘ Stamped.raw) g.server (a.stamp g.now)).map (State.map Stamped.raw) :=
    step_map g.server (a.stamp g.now)
  rw [stamp_map] at h
  rw [h,tracedStep,Option.map_map]
  rfl

/-- The runs of the server are those of the traced server without its stamps. -/
theorem tracedRun_iff : ServerRun query unmarshal as s ↔
    ∃ g, TracedRun query unmarshal as g ∧ g.server.map Stamped.raw = s := by
  constructor
  · intro h
    induction h with
    | init => exact ⟨_,.init,rfl⟩
    | next _ hs ih =>
      obtain ⟨g,hg,rfl⟩ := ih
      rw [step_unstamped] at hs
      obtain ⟨g',hs',hserver⟩ := Option.map_eq_some_iff.mp hs
      exact ⟨g',.next hg hs',hserver⟩
  · rintro ⟨g,hg,rfl⟩
    induction hg with
    | init => exact .init
    | next _ hs ih =>
      refine .next ih ?_
      rw [step_unstamped,hs]
      rfl

def stamps : List (Action C Msg) → List (Action C (Stamped C Msg))
  | [] => []
  | a :: as => a.stamp as.length :: stamps as

theorem TracedRun.server (h : TracedRun query unmarshal as g) :
    g.now = as.length ∧ ServerRun query (unstamped unmarshal) (stamps as) g.server := by
  induction h with
  | init => exact ⟨rfl,.init⟩
  | next _ hs ih =>
    have hspec := tracedStep_spec hs
    rw [ih.1] at hspec
    exact ⟨by rw [hspec.now,ih.1]; rfl,.next ih.2 hspec.server⟩

section Stamps
omit [DecidableEq C]

theorem recv_of_stamp {now : ℕ} {d : C} {m : Stamped C Msg} (h : a.stamp now = .recv d m) :
    m.reader = d ∧ m.time = now ∧ a = .recv d m.raw := by
  cases a with
  | recv c raw =>
    cases h
    exact ⟨rfl,rfl,rfl⟩
  | _ => cases h

theorem enqueues_of_sends {s : State C Msg} {c : C} {msg : Msg}
    (h : sends query unmarshal s a = some (c,msg)) : Enqueues query s c msg a := by
  cases a with
  | recv d raw =>
    simp only [sends] at h
    split at h
    · cases h
    · obtain ⟨target,hslot,he⟩ := Option.map_eq_some_iff.mp h
      cases he
      exact .forward d hslot
  | replayOffer d =>
    obtain ⟨offer,hcached,he⟩ := Option.map_eq_some_iff.mp h
    cases he
    exact .replay hcached
  | _ => cases h

theorem offerTo_eq_some {s : State C Msg} {id : String} {n : ℕ} {msg : Msg} :
    offerTo query unmarshal s id n a = some msg ↔ ∃ d, a = .recv d msg ∧
      (role query d = .device ∧ isOffer unmarshal msg = true) ∧
        id = roomID query d ∧ n = (s.handler d).rm := by
  cases a with
  | recv d raw =>
    simp only [offerTo,Action.recv.injEq]
    split
    · rename_i h
      constructor
      · rintro ⟨⟩
        exact ⟨d,⟨rfl,rfl⟩,h⟩
      · rintro ⟨e,⟨rfl,rfl⟩,_⟩
        rfl
    · rename_i h
      simp only [reduceCtorEq,false_iff]
      rintro ⟨e,⟨rfl,rfl⟩,h'⟩
      exact h h'
  | _ => simp [offerTo]

end Stamps

/-- All messages about have been read before now, and those kept for a replay are offers. -/
structure Timely (unmarshal : Msg → Option SignalMsg) (g : Traced C Msg) : Prop where
  received : ∀ c, ∀ m ∈ g.received c, m.time < g.now
  caches : Caches (fun m => isOffer unmarshal m.raw = true ∧ m.time < g.now) g.server
  newest : ∀ id n m, g.newest id n = some m → m.time < g.now

theorem Timely.step (h : Timely unmarshal g) (hs : TracedStep query unmarshal g (a.stamp g.now) g') :
    Timely unmarshal g' := by
  have hlt : g.now < g'.now := by rw [hs.now]; exact Nat.lt_succ_self _
  constructor
  · intro c m hm
    rw [hs.received] at hm
    rcases List.mem_append.mp hm with hm | hm
    · exact (h.received c m hm).trans hlt
    · rw [Option.mem_toList] at hm
      have henq := enqueues_of_sends (enqueued_eq_some.mp hm).1
      generalize hact : a.stamp g.now = act at henq
      cases henq with
      | forward d hslot =>
        rw [(recv_of_stamp hact).2.1]
        exact hlt
      | replay hcached => exact ((h.caches.handler c m hcached).2).trans hlt
  · have hmono := h.caches.mono fun m hm => And.intro hm.1 (hm.2.trans hlt)
    refine hmono.step hs.server fun c m hact _ hoffer => ⟨hoffer,?_⟩
    rw [(recv_of_stamp hact).2.1]
    exact hlt
  · intro id n m hm
    rw [hs.newest,Option.or_eq_some_iff] at hm
    rcases hm with hm | ⟨_,hm⟩
    · obtain ⟨d,hact,_⟩ := offerTo_eq_some.mp hm
      rw [(recv_of_stamp hact).2.1]
      exact hlt
    · exact (h.newest id n m hm).trans hlt

theorem timely (h : TracedRun query unmarshal as g) : Timely unmarshal g := by
  refine h.invariant (P := fun _ g => Timely unmarshal g)
    ⟨by rintro c m ⟨⟩,caches_start,by rintro id n m ⟨⟩⟩ ?_
  intro as g a g' _ ih hs
  exact ih.step (tracedStep_spec hs)

theorem registered_of_enqueued {s : State C Msg} {as : List (Action C Msg)} {c : C} {msg : Msg}
    (hrun : ServerRun query unmarshal as s) (hen : enabled query s a = true)
    (h : enqueued query unmarshal s a c = some msg) : (s.handler c).pc.Registered := by
  have henq := enqueues_of_sends (enqueued_eq_some.mp h).1
  cases henq with
  | forward d hslot =>
    obtain ⟨hlast,hclear⟩ := lastSetter_of_slot hrun hslot
    exact (registered_iff hrun c).mpr ⟨(lastSetter_spec hlast).1,hclear⟩
  | replay hcached =>
    simp only [enabled,decide_eq_true_eq] at hen
    rw [hen]
    exact ⟨by decide,by decide⟩

theorem time_of_enqueued {now : ℕ} {s : State C (Stamped C Msg)} {m : Stamped C Msg}
    (h : enqueued query (unstamped unmarshal) s (a.stamp now) c = some m) (hne : a ≠ .replayOffer c) :
    m.time = now := by
  have henq := enqueues_of_sends (enqueued_eq_some.mp h).1
  generalize hact : a.stamp now = act at henq
  cases henq with
  | forward d hslot => exact (recv_of_stamp hact).2.1
  | replay hcached =>
    refine absurd ?_ hne
    cases a <;> cases hact
    rfl

theorem received_nil (h : TracedRun query unmarshal as g) (c : C)
    (hc : (g.server.handler c).pc.rank < 3) : g.received c = [] := by
  induction h with
  | init => rfl
  | @next as g g' a hrun hs ih =>
    have hspec := tracedStep_spec hs
    have hbefore : (g.server.handler c).pc.rank < 3 :=
      (rank_step hspec.server c).1.trans_lt hc
    have hnone : enqueued query (unstamped unmarshal) g.server (a.stamp g.now) c = none := by
      rw [Option.eq_none_iff_forall_ne_some]
      intro m hm
      have hreg := registered_of_enqueued (TracedRun.server hrun).2 (step_eq_some.mp hspec.server).1 hm
      have := hreg.1
      omega
    rw [hspec.received,ih hbefore,hnone]
    rfl

/-- What is in the cache is the newest offer of the room. -/
theorem newest_of_cache (h : TracedRun query unmarshal as g) {id : String} {n : ℕ} {m : Stamped C Msg}
    (hm : (g.server.heap id n).offerCache = some m) : g.newest id n = some m := by
  induction h with
  | init => cases hm
  | @next as g g' a hrun hs ih =>
    obtain ⟨act,hact⟩ : ∃ act, a.stamp g.now = act := ⟨_,rfl⟩
    have hspec : TracedStep query unmarshal g act g' := hact ▸ tracedStep_spec hs
    have hold : offerTo query (unstamped unmarshal) g.server id n act = none →
        (g.server.heap id n).offerCache = some m → g'.newest id n = some m := by
      intro hnone hcache
      rw [hspec.newest,hnone]
      exact ih hcache
    rw [step_offerCache hspec.server] at hm
    cases act with
    | recv d raw =>
      simp only [offerTo] at hm hold
      split at hm
      · rename_i hd
        rw [hspec.newest,offerTo,if_pos hd]
        exact hm
      · rename_i hd
        exact hold (if_neg hd) hm
    | getOrCreate d =>
      simp only at hm
      split at hm
      · cases hm
      · exact hold rfl hm
    | clear d =>
      simp only at hm
      split at hm
      · cases hm
      · exact hold rfl hm
    | _ => exact hold rfl hm

end Trace
end SignalServer
end AnyKvm
