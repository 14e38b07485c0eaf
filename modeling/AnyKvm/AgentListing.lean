import Mathlib.Data.List.Nodup
import AnyKvm.RoomRegistry
import AnyKvm.SlotOwnership

/-! `agentsHandler` next to the handlers of connections.
It holds `roomsMu` from the first room to the last, so that nobody looks up or deletes a room meanwhile, and
takes the lock of one room at a time. -/
namespace AnyKvm
namespace SignalServer
namespace Listing

open Transition

/-- An entry, with the device that was in the slot when the room was read, and when that one had stored
its name. -/
structure Reading (C : Type*) where
  info : AgentInfo
  device : C
  since : Option ℕ
  deriving DecidableEq

/-- `keys` are the keys of the registry. `named` and `namedBy` are history: when a device has stored its name,
and which one has done so last in a room object. -/
structure State (C Msg : Type*) where
  server : SignalServer.State C Msg := .start
  keys : List String := []
  lister : Option (List String × List (Reading C)) := none
  responses : List (List (Reading C)) := []
  named : C → Option ℕ := fun _ => none
  namedBy : String → ℕ → Option (C × ℕ) := fun _ _ => none

def State.start {C Msg : Type*} : State C Msg := {}

/-- `list` takes `roomsMu`, with the order in which the map is ranged over. -/
inductive Action (C Msg : Type*)
  | server (a : SignalServer.Action C Msg)
  | list (order : List String)
  | read
  | finish
  deriving DecidableEq

section Machine
variable {C Msg : Type*} [DecidableEq C] (query : C → Query) (unmarshal : Msg → Option SignalMsg)

/-- The name that a device stores. -/
def deviceName (c : C) : String := if (query c).name = "" then roomID query c else (query c).name

def takesRooms : SignalServer.Action C Msg → Bool
  | .getOrCreate _ | .tryDelete _ => true
  | _ => false

namespace State
variable (s : State C Msg)

/-- The handlers of the connections go on, with the history of the names. -/
def serve (a : SignalServer.Action C Msg) (server : SignalServer.State C Msg) : State C Msg :=
  let id := roomID query a.actor
  let s := { s with
    server := server
    keys := if (server.rooms id).isSome then s.keys.insert id else s.keys.erase id }
  match a with
  | .setName c now => { s with
      named := Function.update s.named c (some now)
      namedBy := Function.update s.namedBy id
        (Function.update (s.namedBy id) (server.handler c).rm (some (c,now))) }
  | _ => s

def reading (id : String) : Option (Reading C) :=
  (s.server.rooms id).bind fun n =>
    let rm := s.server.heap id n
    rm.device.map fun c => ⟨⟨id,rm.deviceName,rm.connectedAt⟩,c,s.named c⟩

def readings : List (Reading C) := (s.lister.map Prod.snd).getD [] ++ s.responses.flatten

end State

def step (s : State C Msg) : Action C Msg → Option (State C Msg)
  | .server a =>
    if s.lister.isSome ∧ takesRooms a = true then none
    else (SignalServer.step query unmarshal s.server a).map (s.serve query a)
  | .list order =>
    if s.lister.isNone ∧ order.Perm s.keys then some { s with lister := some (order,[]) } else none
  | .read => match s.lister with
    | some (id :: rest,agents) =>
      some { s with lister := some (rest,(s.reading id).toList ++ agents) }
    | _ => none
  | .finish => match s.lister with
    | some ([],agents) => some { s with lister := none, responses := agents :: s.responses }
    | _ => none

/-- Name and time are those of the device that was in the slot. -/
def Reading.Accurate (r : Reading C) : Prop :=
  r.info.name = deviceName query r.device ∧ r.since = some r.info.connectedAt

def Consistent (s : State C Msg) : Prop := ∀ r ∈ s.readings, r.Accurate query

/-- A room is read only when the last to have stored a name in it is the device in its slot, or one of the same
name and time. -/
def Settled (s : State C Msg) : Action C Msg → Prop
  | .read => ∀ id rest agents n c, s.lister = some (id :: rest,agents) → s.server.rooms id = some n →
      (s.server.heap id n).device = some c →
      ∃ d t, s.namedBy id n = some (d,t) ∧ deviceName query d = deviceName query c ∧ s.named c = some t
  | _ => True

variable {query unmarshal} {as : List (Action C Msg)} {s s' : State C Msg} {a : Action C Msg}

omit [DecidableEq C] in
theorem reading_info (s : State C Msg) (id : String) :
    (s.reading id).map Reading.info = agentInfo s.server id := by
  unfold State.reading agentInfo
  cases s.server.rooms id with
  | none => rfl
  | some n =>
    dsimp only [Option.bind_some]
    cases (s.server.heap id n).device <;> rfl

def serverActions (as : List (Action C Msg)) : List (SignalServer.Action C Msg) :=
  as.filterMap fun a => match a with
    | .server a => some a
    | _ => none

theorem serve_server (s : State C Msg) (a : SignalServer.Action C Msg) (server : SignalServer.State C Msg) :
    (s.serve query a server).server = server := by
  cases a <;> rfl

theorem serve_lister (s : State C Msg) (a : SignalServer.Action C Msg) (server : SignalServer.State C Msg) :
    (s.serve query a server).lister = s.lister ∧ (s.serve query a server).responses = s.responses := by
  cases a <;> exact ⟨rfl,rfl⟩

theorem step_cases (hs : step query unmarshal s a = some s') :
    (∃ b server, a = .server b ∧ SignalServer.step query unmarshal s.server b = some server ∧
      s' = s.serve query b server) ∨
    (∃ order, a = .list order ∧ s.lister = none ∧ order.Perm s.keys ∧
      s' = { s with lister := some (order,[]) }) ∨
    (∃ id rest agents, a = .read ∧ s.lister = some (id :: rest,agents) ∧
      s' = { s with lister := some (rest,(s.reading id).toList ++ agents) }) ∨
    ∃ agents, a = .finish ∧ s.lister = some ([],agents) ∧
      s' = { s with lister := none, responses := agents :: s.responses } := by
  cases a with
  | server b =>
    simp only [step] at hs
    split at hs
    · cases hs
    · obtain ⟨server,hserver,rfl⟩ := Option.map_eq_some_iff.mp hs
      exact .inl ⟨b,server,rfl,hserver,rfl⟩
  | list order =>
    simp only [step] at hs
    split at hs
    · rename_i h
      exact .inr (.inl ⟨order,rfl,Option.isNone_iff_eq_none.mp h.1,h.2,(Option.some.inj hs).symm⟩)
    · cases hs
  | read =>
    simp only [step] at hs
    split at hs
    · rename_i id rest agents h
      exact .inr (.inr (.inl ⟨id,rest,agents,rfl,h,(Option.some.inj hs).symm⟩))
    · cases hs
  | finish =>
    simp only [step] at hs
    split at hs
    · rename_i agents h
      exact .inr (.inr (.inr ⟨agents,rfl,h,(Option.some.inj hs).symm⟩))
    · cases hs

theorem serverRun (h : Run (step query unmarshal) .start as s) :
    ServerRun query unmarshal (serverActions as) s.server := by
  induction h with
  | init => exact .init
  | next _ hs ih =>
    rcases step_cases hs with ⟨b,server,rfl,hserver,rfl⟩ | ⟨order,rfl,_,_,rfl⟩ |
      ⟨id,rest,agents,rfl,_,rfl⟩ | ⟨agents,rfl,_,rfl⟩
    · rw [serve_server]
      exact ih.next hserver
    · exact ih
    · exact ih
    · exact ih

theorem step_rooms_ne {t t' : SignalServer.State C Msg} {b : SignalServer.Action C Msg}
    (h : SignalServer.step query unmarshal t b = some t') {id : String} (hid : id ≠ roomID query b.actor) :
    t'.rooms id = t.rooms id := by
  rw [step_rooms h]
  cases b with
  | getOrCreate c => exact if_neg hid
  | tryDelete c => exact if_neg fun hdelete => hid hdelete.1
  | _ => rfl

theorem serve_keys (s : State C Msg) (b : SignalServer.Action C Msg) (server : SignalServer.State C Msg) :
    (s.serve query b server).keys =
      if (server.rooms (roomID query b.actor)).isSome then s.keys.insert (roomID query b.actor)
      else s.keys.erase (roomID query b.actor) := by
  cases b <;> rfl

theorem keys_registered (h : Run (step query unmarshal) .start as s) :
    s.keys.Nodup ∧ ∀ id, id ∈ s.keys ↔ (s.server.rooms id).isSome = true := by
  refine h.invariant (P := fun _ s => s.keys.Nodup ∧ ∀ id, id ∈ s.keys ↔ (s.server.rooms id).isSome = true)
    ⟨List.nodup_nil,fun id => by simp [State.start,SignalServer.State.start]⟩ ?_
  intro as s a s' _ ih hs
  obtain ⟨hnodup,hkeys⟩ := ih
  rcases step_cases hs with ⟨b,server,rfl,hserver,rfl⟩ | ⟨order,rfl,_,_,rfl⟩ |
    ⟨id,rest,agents,rfl,_,rfl⟩ | ⟨agents,rfl,_,rfl⟩
  · rw [serve_keys,serve_server]
    split
    · rename_i hsome
      refine ⟨List.Nodup.insert hnodup,fun id => ?_⟩
      rw [List.mem_insert_iff,hkeys id]
      by_cases hid : id = roomID query b.actor
      · rw [hid]
        exact iff_of_true (.inl rfl) hsome
      · rw [step_rooms_ne hserver hid]
        exact or_iff_right hid
    · rename_i hnone
      refine ⟨hnodup.erase _,fun id => ?_⟩
      rw [hnodup.mem_erase_iff,hkeys id]
      by_cases hid : id = roomID query b.actor
      · rw [hid]
        exact iff_of_false (fun h => h.1 rfl) hnone
      · rw [step_rooms_ne hserver hid]
        exact and_iff_right hid
  · exact ⟨hnodup,hkeys⟩
  · exact ⟨hnodup,hkeys⟩
  · exact ⟨hnodup,hkeys⟩

theorem step_name {t t' : SignalServer.State C Msg} {b : SignalServer.Action C Msg}
    (h : SignalServer.step query unmarshal t b = some t') (id : String) (n : ℕ) :
    ((t'.heap id n).deviceName,(t'.heap id n).connectedAt) = match b with
      | .getOrCreate c =>
        if t.rooms (roomID query c) = none ∧ id = roomID query c ∧ n = t.created (roomID query c) then ("",0)
        else ((t.heap id n).deviceName,(t.heap id n).connectedAt)
      | .setName c now =>
        if id = roomID query c ∧ n = (t.handler c).rm then (deviceName query c,now)
        else ((t.heap id n).deviceName,(t.heap id n).connectedAt)
      | _ => ((t.heap id n).deviceName,(t.heap id n).connectedAt) := by
  obtain ⟨_,rfl⟩ := step_eq_some.mp h
  cases b with
  | getOrCreate c =>
    simp only [perform,getOrCreate_heap]
    split <;> rfl
  | set c =>
    simp only [perform,goto_heap,updateRoomOf_heap]
    split
    · cases role query c <;> rfl
    · rfl
  | clear c =>
    simp only [perform,goto_heap,updateRoomOf_heap]
    split
    · cases role query c <;> rfl
    · rfl
  | setName c now =>
    simp only [perform,goto_heap,updateRoomOf_heap]
    split <;> rfl
  | recv c raw =>
    simp only [perform,recv_heap]
    split <;> rfl
  | _ => simp [perform]

/-- Name and time in a room object are those stored last, and new objects have none. -/
structure Recorded (query : C → Query) (s : State C Msg) : Prop where
  stored : ∀ id n, ((s.server.heap id n).deviceName,(s.server.heap id n).connectedAt) =
    ((s.namedBy id n).map fun p => (deviceName query p.1,p.2)).getD ("",0)
  allocated : ∀ id n, s.namedBy id n ≠ none → n < s.server.created id

theorem namedBy_serve (s : State C Msg) (b : SignalServer.Action C Msg) (server : SignalServer.State C Msg)
    (id : String) (n : ℕ) :
    (s.serve query b server).namedBy id n = match b with
      | .setName c now =>
        if id = roomID query c ∧ n = (server.handler c).rm then some (c,now) else s.namedBy id n
      | _ => s.namedBy id n := by
  cases b with
  | setName c now =>
    change Function.update s.namedBy (roomID query c) _ id n = _
    by_cases hid : id = roomID query c
    · subst hid
      by_cases hn : n = (server.handler c).rm <;> simp [Function.update,SignalServer.Action.actor,hn]
    · simp [Function.update,hid]
  | _ => rfl

theorem Recorded.serve (hrun : ServerRun query unmarshal (serverActions as) s.server)
    (h : Recorded query s) {b : SignalServer.Action C Msg} {server : SignalServer.State C Msg}
    (hs : SignalServer.step query unmarshal s.server b = some server) :
    Recorded query (s.serve query b server) := by
  have hnone : ∀ id n, ¬ n < s.server.created id → s.namedBy id n = none := by
    intro id n hlt
    by_contra hsome
    exact hlt (h.allocated id n hsome)
  constructor
  · intro id n
    rw [serve_server,step_name hs,namedBy_serve]
    cases b with
    | getOrCreate c =>
      dsimp only
      split
      · rename_i hnew
        obtain ⟨_,rfl,rfl⟩ := hnew
        rw [hnone _ _ (lt_irrefl _)]
        rfl
      · exact h.stored id n
    | setName c now =>
      dsimp only
      rw [step_rm hs c (by simp)]
      split
      · rfl
      · exact h.stored id n
    | _ => exact h.stored id n
  · intro id n hsome
    rw [namedBy_serve] at hsome
    rw [serve_server]
    cases b with
    | setName c now =>
      dsimp only at hsome
      split at hsome
      · rename_i hroom
        obtain ⟨rfl,rfl⟩ := hroom
        have hen := (step_eq_some.mp hs).1
        simp only [enabled,decide_eq_true_eq] at hen
        rw [step_rm hs c (by simp)]
        exact ((SignalServer.allocated hrun).held c (by rw [hen.1]; decide)).trans_le (created_le hs _)
      · exact (h.allocated id n hsome).trans_le (created_le hs id)
    | _ => exact (h.allocated id n hsome).trans_le (created_le hs id)

theorem recorded (h : Run (step query unmarshal) .start as s) : Recorded query s := by
  refine h.invariant (P := fun _ s => Recorded query s) ⟨fun _ _ => rfl,fun _ _ h => absurd rfl h⟩ ?_
  intro as s a s' hrun ih hs
  rcases step_cases hs with ⟨b,server,rfl,hserver,rfl⟩ | ⟨order,rfl,_,_,rfl⟩ |
    ⟨id,rest,agents,rfl,_,rfl⟩ | ⟨agents,rfl,_,rfl⟩
  · exact ih.serve (serverRun hrun) hserver
  · exact ⟨ih.stored,ih.allocated⟩
  · exact ⟨ih.stored,ih.allocated⟩
  · exact ⟨ih.stored,ih.allocated⟩

/-- Only requests with a room get a connection. -/
theorem room_ne_empty {bs : List (SignalServer.Action C Msg)} {t : SignalServer.State C Msg}
    (h : ServerRun query unmarshal bs t) {c : C} (hc : (t.handler c).pc ≠ .absent) : roomID query c ≠ "" := by
  induction h with
  | init => exact absurd rfl hc
  | @next bs t t' b _ hs ih =>
    by_cases hactor : c = b.actor
    · have hen := (step_eq_some.mp hs).1
      have hpc := step_pc hs
      subst hactor
      cases b with
      | connect d =>
        simp only [enabled,decide_eq_true_eq] at hen
        intro hempty
        have hvalid := hen.2
        rw [validate,if_pos (show (query d).room = "" from hempty)] at hvalid
        cases hvalid
      | _ =>
        refine ih fun habsent => ?_
        simp_all [enabled,SignalServer.Action.actor,SignalServer.Action.next]
    · rw [step_handler_ne hs hactor] at hc
      exact ih hc

theorem deviceName_ne_empty (h : Run (step query unmarshal) .start as s) {id : String} {n : ℕ} {c : C}
    (hslot : (s.server.heap id n).device = some c) : deviceName query c ≠ "" := by
  have hrun := serverRun h
  have hset := (lastSetter_spec (lastSetter_of_slot (ρ := .device) hrun hslot).1).1
  have hroom : roomID query c ≠ "" := by
    refine room_ne_empty hrun fun habsent => ?_
    have hrank := (set_mem_iff hrun c).mp hset
    rw [habsent] at hrank
    exact absurd hrank (by decide)
  unfold deviceName
  split
  · exact hroom
  · assumption

theorem accurate_iff (h : Run (step query unmarshal) .start as s) {id : String} {r : Reading C}
    (hr : s.reading id = some r) :
    r.Accurate query ↔ ∀ n c, s.server.rooms id = some n → (s.server.heap id n).device = some c →
      ∃ d t, s.namedBy id n = some (d,t) ∧ deviceName query d = deviceName query c ∧ s.named c = some t := by
  obtain ⟨n,hn,hr⟩ := Option.bind_eq_some_iff.mp hr
  obtain ⟨c,hslot,rfl⟩ := Option.map_eq_some_iff.mp hr
  have hstored := (recorded h).stored id n
  have hname := deviceName_ne_empty h hslot
  unfold Reading.Accurate
  dsimp only
  constructor
  · rintro ⟨hinfo,hsince⟩ n' c' hn' hslot'
    cases hn.symm.trans hn'
    cases hslot.symm.trans hslot'
    cases hby : s.namedBy id n with
    | none =>
      rw [hby] at hstored
      exact absurd (hinfo.symm.trans (congrArg Prod.fst hstored)) hname
    | some p =>
      obtain ⟨d,t⟩ := p
      rw [hby] at hstored
      refine ⟨d,t,rfl,(congrArg Prod.fst hstored).symm.trans hinfo,hsince.trans ?_⟩
      exact congrArg (fun p => some (Prod.snd p)) hstored
  · intro hsettled
    obtain ⟨d,t,hby,hsame,hnamed⟩ := hsettled n c hn hslot
    rw [hby] at hstored
    refine ⟨(congrArg Prod.fst hstored).trans hsame,hnamed.trans ?_⟩
    exact (congrArg (fun p => some (Prod.snd p)) hstored).symm

theorem consistent_step (h : Run (step query unmarshal) .start as s) (hconsistent : Consistent query s)
    (hs : step query unmarshal s a = some s') : Settled query s a ↔ Consistent query s' := by
  rcases step_cases hs with ⟨b,server,rfl,_,rfl⟩ | ⟨order,rfl,hlister,_,rfl⟩ |
    ⟨id,rest,agents,rfl,hlister,rfl⟩ | ⟨agents,rfl,hlister,rfl⟩
  · refine iff_of_true trivial ?_
    obtain ⟨hlister,hresponses⟩ : (s.serve query b server).lister = s.lister ∧
        (s.serve query b server).responses = s.responses := serve_lister s b server
    rw [Consistent,State.readings,hlister,hresponses]
    exact hconsistent
  · refine iff_of_true trivial fun r hr => hconsistent r ?_
    rw [State.readings,hlister]
    exact hr
  · have hreadings : (({ s with lister := some (rest,(s.reading id).toList ++ agents) } : State C Msg)).readings =
        (s.reading id).toList ++ s.readings := by
      simp only [State.readings,hlister,Option.map_some,Option.getD_some,List.append_assoc]
    rw [Consistent,hreadings]
    constructor
    · intro hsettled r hr
      rcases List.mem_append.mp hr with hr | hr
      · refine (accurate_iff h (Option.mem_toList.mp hr)).mpr fun n c hn hslot => ?_
        exact hsettled id rest agents n c hlister hn hslot
      · exact hconsistent r hr
    · intro hall id' rest' agents' n c hlister' hn hslot
      cases hlister.symm.trans hlister'
      have hr : s.reading id =
          some ⟨⟨id,(s.server.heap id n).deviceName,(s.server.heap id n).connectedAt⟩,c,s.named c⟩ := by
        rw [State.reading,hn]
        exact congrArg (Option.map _) hslot
      have haccurate := hall _ (List.mem_append_left _ (Option.mem_toList.mpr hr))
      exact (accurate_iff h hr).mp haccurate n c hn hslot
  · refine iff_of_true trivial fun r hr => hconsistent r ?_
    rw [State.readings,hlister]
    simpa [State.readings] using hr

/-- The listings are right all along a run exactly if no room is read between a device's registration and its
name, or after another device has put its own name there. -/
theorem always_consistent_iff (h : Run (step query unmarshal) .start as s) :
    Always (step query unmarshal) .start (fun _ s => Consistent query s) as ↔
      GuardedRun (step query unmarshal) .start (fun _ s a => Settled query s a) as s :=
  h.always_iff_guarded (fun _ hr => nomatch hr) fun _ _ _ _ hguarded hconsistent hs =>
    consistent_step hguarded.run hconsistent hs

end Machine

abbrev pairListing : State ℕ String → Action ℕ String → Option (State ℕ String) :=
  step pairQuery fun _ => none

/-- A device connects, and its room is listed. -/
def listNamed : List (Action ℕ String) :=
  [.server (.connect 0),.server (.getOrCreate 0),.server (.set 0),.server (.setName 0 7),
    .list ["kvm-room-1"],.read,.finish]

theorem always_consistent_iff_named :
    ∃ s, Run pairListing .start listNamed.reverse s ∧
      (Always pairListing .start (fun _ s => Consistent pairQuery s) listNamed.reverse ↔
        GuardedRun pairListing .start (fun _ s a => Settled pairQuery s a) listNamed.reverse s) := by
  obtain ⟨s,hrun,_⟩ := exists_run_of_replay pairListing .start listNamed (fun _ => true) (by decide)
  exact ⟨s,hrun,always_consistent_iff hrun⟩

/-- The room is read when the device is in its slot and has not stored its name. -/
theorem listed_without_name :
    ¬ ∀ as s, Run pairListing .start as s → Consistent pairQuery s := by
  intro h
  obtain ⟨s,hrun,hp⟩ := exists_run_of_replay pairListing .start
    [.server (.connect 0),.server (.getOrCreate 0),.server (.set 0),.list ["kvm-room-1"],.read,.finish]
    (fun s => s.readings = [⟨⟨"kvm-room-1","",0⟩,0,none⟩]) (by decide)
  have hreadings := of_decide_eq_true hp
  have haccurate := h _ s hrun ⟨⟨"kvm-room-1","",0⟩,0,none⟩ (hreadings ▸ List.mem_singleton.mpr rfl)
  exact absurd haccurate.1 (by decide)

end Listing
end SignalServer
end AnyKvm
