import AnyKvm.LockDiscipline
import AnyKvm.ChannelSends

/-! The machine with locks against the machine whose critical sections are single steps.
A section takes effect with its body; `tryDelete` takes effect when it has read that the room is empty,
since nobody looks at the registry until it has been deleted. So every run of the machine with locks is,
read in this way, a run of the machine without. -/
namespace AnyKvm
namespace SignalServer
namespace Locks

open Transition LockOrder

section Machine
variable {C H Msg : Type*} [DecidableEq C]
  (query : C → Query) (unmarshal : Msg → Option SignalMsg)

/-- What a `tryDelete` has found out and not yet done. -/
def WsPoint.verdict? : WsPoint C Msg → Option Bool
  | checked _ empty | deciding empty => some empty
  | _ => none

/-- The holder of `roomsMu`, if it is about to finish a `tryDelete`. -/
def State.verdict? (s : State C H Msg) : Option (C × Bool) :=
  match s.owner .rooms with
  | some (.ws c) => (s.ws c).verdict?.map fun empty => (c,empty)
  | _ => none

/-- The memory, as if that had been done already. -/
def State.settled (s : State C H Msg) : SignalServer.State C Msg :=
  match s.verdict? with
  | some (c,empty) => finishDelete query s.server c empty
  | none => s.server

section Commute
variable {query} {unmarshal} {S : SignalServer.State C Msg} {c d : C} {empty : Bool}

theorem finishDelete_send : (finishDelete query S d empty).send = S.send := rfl

theorem finishDelete_roomOf : (finishDelete query S d empty).roomOf query c = S.roomOf query c := by
  have hrm : ((finishDelete query S d empty).handler c).rm = (S.handler c).rm := by
    by_cases hc : c = d
    · subst hc
      simp [finishDelete]
    · simp [finishDelete,hc]
  rw [State.roomOf,hrm]
  rfl

theorem finishDelete_handler (hc : c ≠ d) :
    (finishDelete query S d empty).handler c = S.handler c := by
  simp [finishDelete,hc]

theorem finishDelete_setHandler (hc : c ≠ d) (h : Handler Msg) :
    (finishDelete query S d empty).setHandler c h = finishDelete query (S.setHandler c h) d empty := by
  simp only [finishDelete,State.setHandler,State.goto,SignalServer.State.mk.injEq,true_and,and_true]
  rw [Function.update_of_ne (Ne.symm hc)]
  exact Function.update_comm (Ne.symm hc) _ _ _

theorem finishDelete_goto (hc : c ≠ d) (pc : Pc) :
    (finishDelete query S d empty).goto c pc = finishDelete query (S.goto c pc) d empty := by
  unfold State.goto
  rw [finishDelete_handler hc]
  exact finishDelete_setHandler hc _

theorem finishDelete_updateRoomOf (hc : c ≠ d) (f : Room C Msg → Room C Msg) :
    (finishDelete query S d empty).updateRoomOf query c f =
      finishDelete query (S.updateRoomOf query c f) d empty := by
  unfold State.updateRoomOf
  rw [finishDelete_roomOf,finishDelete_handler hc]
  rfl

theorem finishDelete_trySend (msg : Msg) :
    (finishDelete query S d empty).trySend c msg = finishDelete query (S.trySend c msg) d empty := by
  unfold State.trySend
  rw [finishDelete_send]
  split
  · rfl
  · cases (S.send c).queue.push? msg <;> rfl

theorem finishDelete_recv (hc : c ≠ d) (raw : Msg) :
    (finishDelete query S d empty).recv query unmarshal c raw =
      finishDelete query (S.recv query unmarshal c raw) d empty := by
  have hcache : (finishDelete query S d empty).cacheOffer query unmarshal c raw =
      finishDelete query (S.cacheOffer query unmarshal c raw) d empty := by
    unfold State.cacheOffer
    split
    · exact finishDelete_updateRoomOf hc _
    · rfl
  unfold State.recv
  cases unmarshal raw with
  | none => rfl
  | some m =>
    simp only [State.forward,State.deliver,hcache,finishDelete_roomOf]
    cases ((S.cacheOffer query unmarshal c raw).roomOf query c).slot (Room.peerOf (role query c)) with
    | none => rfl
    | some target => exact finishDelete_trySend raw

theorem finishDelete_replayOffer (hc : c ≠ d) :
    (finishDelete query S d empty).replayOffer c = finishDelete query (S.replayOffer c) d empty := by
  unfold State.replayOffer
  rw [finishDelete_handler hc]
  cases (S.handler c).cached with
  | none => rfl
  | some offer => exact finishDelete_trySend offer

theorem finishDelete_closeSend :
    (finishDelete query S d empty).closeSend c = finishDelete query (S.closeSend c) d empty := by
  unfold State.closeSend
  rw [finishDelete_send]
  split <;> rfl

theorem finishDelete_stopPump :
    (finishDelete query S d empty).setHandler c
        { (finishDelete query S d empty).handler c with pumping := false } =
      finishDelete query (S.setHandler c { S.handler c with pumping := false }) d empty := by
  by_cases hc : c = d
  · subst hc
    simp [finishDelete,State.setHandler,State.goto]
  · rw [finishDelete_handler hc]
    exact finishDelete_setHandler hc _

variable {b : SignalServer.Action C Msg}

/-- What `roomsMu` protects is left alone by an action. -/
def sparesRooms : SignalServer.Action C Msg → Bool
  | .getOrCreate _ | .tryDelete _ => false
  | _ => true

theorem finishDelete_enabled (hd : (threadOf b : Thread C H) ≠ .ws d) :
    enabled query (finishDelete query S d empty) b = enabled query S b := by
  have hpumping : ∀ c, ((finishDelete query S d empty).handler c).pumping = (S.handler c).pumping := by
    intro c
    by_cases hc : c = d
    · subst hc
      simp [finishDelete]
    · rw [finishDelete_handler hc]
  cases b with
  | pump c | pumpFail c | pumpClose c => simp only [enabled,hpumping,finishDelete_send]
  | _ =>
    simp only [threadOf,SignalServer.Action.actor,ne_eq,Thread.ws.injEq] at hd
    simp only [enabled,finishDelete_handler hd]

theorem finishDelete_perform (hb : sparesRooms b = true) (hd : (threadOf b : Thread C H) ≠ .ws d) :
    perform query unmarshal (finishDelete query S d empty) b =
      finishDelete query (perform query unmarshal S b) d empty := by
  cases b <;> simp only [threadOf,SignalServer.Action.actor,ne_eq,Thread.ws.injEq] at hd
  case connect c => exact finishDelete_goto hd .upgraded
  case getOrCreate c => cases hb
  case set c =>
    simp only [perform,finishDelete_updateRoomOf hd]
    exact finishDelete_goto hd .registered
  case setName c now =>
    simp only [perform,finishDelete_updateRoomOf hd]
    exact finishDelete_goto hd .named
  case spawnPump c =>
    simp only [perform,finishDelete_handler hd]
    exact finishDelete_setHandler hd _
  case readCache c =>
    simp only [perform,finishDelete_handler hd,finishDelete_roomOf]
    exact finishDelete_setHandler hd _
  case replayOffer c =>
    simp only [perform,finishDelete_replayOffer hd]
    exact finishDelete_goto hd .reading
  case recv c raw => exact finishDelete_recv hd raw
  case clear c =>
    simp only [perform,finishDelete_updateRoomOf hd]
    exact finishDelete_goto hd .cleared
  case closeSend c =>
    simp only [perform,finishDelete_closeSend]
    exact finishDelete_goto hd .closed
  case tryDelete c => cases hb
  case pump c => rfl
  case pumpFail c =>
    simp only [perform]
    exact finishDelete_stopPump (S := S.setSend c { S.send c with queue := (S.send c).queue.tail })
  case pumpClose c => exact finishDelete_stopPump

end Commute

/-- The write pumps have no critical sections. -/
def isPump : SignalServer.Action C Msg → Bool
  | .pump _ | .pumpFail _ | .pumpClose _ => true
  | _ => false

/-- A section that has been entered can take effect, and a room that has been looked up is still there. -/
def WsPoint.Fits (server : SignalServer.State C Msg) (c : C) : WsPoint C Msg → Prop
  | outside | leaving _ => True
  | wanting a m | entered a m => (isPump a = false ∧ a.actor = c) ∧
      enabled query server a = true ∧ section? query unmarshal server a = some m ∧ a ≠ .tryDelete c
  | wantingRooms | lookingUp | checked _ _ | deciding _ => enabled query server (.tryDelete c) = true
  | wantingRoom n | checking n => enabled query server (.tryDelete c) = true ∧
      server.rooms (roomID query c) = some n

/-- The table of the holders and the memory are as the points say. -/
structure Steady (s : State C H Msg) : Prop where
  agrees : Agrees s.owner (s.held query)
  fits : ∀ c, (s.ws c).Fits query unmarshal s.server c

/-- The memory is the same, what is known of it at the points as well, and no verdict comes or goes. -/
structure Quiet (s s' : State C H Msg) : Prop where
  server : s'.server = s.server
  fits : ∀ c, (s.ws c).Fits query unmarshal s.server c → (s'.ws c).Fits query unmarshal s.server c
  verdict : s'.verdict? = s.verdict?

/-- Simulation: a step is a step of the machine without locks, or none. -/
def Simulates (s s' : State C H Msg) : Prop :=
  s'.settled query = s.settled query ∨
    ∃ b, SignalServer.step query unmarshal (s.settled query) b = some (s'.settled query)

/-- The points fit the memory after the step, and the step simulates. -/
def Follows (s s' : State C H Msg) : Prop :=
  (∀ c, (s'.ws c).Fits query unmarshal s'.server c) ∧
    Simulates query unmarshal s s'

section Points
variable {query} {unmarshal} {S S' : SignalServer.State C Msg} {c d : C} {p : WsPoint C Msg}
  {b : SignalServer.Action C Msg}
omit [DecidableEq C]

theorem threadOf_eq (b : SignalServer.Action C Msg) :
    (threadOf b : Thread C H) = if isPump b = true then .pump b.actor else .ws b.actor := by
  cases b <;> rfl

theorem enabled_congr (hpump : isPump b = false)
    (hpc : (S'.handler b.actor).pc = (S.handler b.actor).pc) :
    enabled query S' b = enabled query S b := by
  cases b with
  | pump c | pumpFail c | pumpClose c => cases hpump
  | _ =>
    simp only [SignalServer.Action.actor] at hpc
    simp only [enabled,hpc]

theorem section_congr (hrm : (S'.handler b.actor).rm =
    (S.handler b.actor).rm) : section? query unmarshal S' b = section? query unmarshal S b := by
  cases b <;> simp only [SignalServer.Action.actor] at hrm <;> simp only [section?,hrm]

theorem WsPoint.Fits.congr (h : p.Fits query unmarshal S c)
    (hpc : (S'.handler c).pc = (S.handler c).pc) (hrm : (S'.handler c).rm = (S.handler c).rm)
    (hrooms : .rooms ∈ p.held (roomID query c) →
      S'.rooms (roomID query c) = S.rooms (roomID query c)) : p.Fits query unmarshal S' c := by
  have hdelete : enabled query S' (.tryDelete c) = enabled query S (.tryDelete c) := enabled_congr rfl hpc
  cases p with
  | outside | leaving m => trivial
  | wanting a m | entered a m =>
    obtain ⟨⟨hpump,rfl⟩,henabled,hsection,hne⟩ := h
    exact ⟨⟨hpump,rfl⟩,(enabled_congr hpump hpc).trans henabled,(section_congr hrm).trans hsection,hne⟩
  | wantingRooms | lookingUp | checked n empty | deciding empty => exact hdelete.trans h
  | wantingRoom n | checking n =>
    exact ⟨hdelete.trans h.1,(hrooms (by simp [held])).trans h.2⟩

theorem WsPoint.Fits.locked (h : p.Fits query unmarshal S c) : p.locked.Fits query unmarshal S c := by
  cases p <;> exact h

theorem WsPoint.Fits.unlocked (h : p.Fits query unmarshal S c) : p.unlocked.Fits query unmarshal S c := by
  cases p <;> exact h

theorem sparesRooms_of_section {m : Mutex} (h : section? query unmarshal S b = some m) (hm : m ≠ .rooms) :
    sparesRooms b = true := by
  cases b <;> first | rfl | exact absurd (Option.some.inj h).symm hm

theorem sparesRooms_of_free (h : section? query unmarshal S b = none) : sparesRooms b = true := by
  cases b <;> first | rfl | cases h

end Points

section Fits
variable {query} {unmarshal} {S S' : SignalServer.State C Msg} {c d : C} {p : WsPoint C Msg}
  {b : SignalServer.Action C Msg}

theorem handler_of_step (h : SignalServer.step query unmarshal S b = some S')
    (hb : isPump b = true ∨ b.actor ≠ c) :
    (S'.handler c).pc = (S.handler c).pc ∧ (S'.handler c).rm = (S.handler c).rm := by
  by_cases hc : b.actor = c
  · subst hc
    have hpump : isPump b = true := hb.resolve_right fun hne => hne rfl
    refine ⟨(step_pc h).trans ?_,step_rm h _ ?_⟩
    · cases b <;> first | rfl | cases hpump
    · intro heq
      rw [heq] at hpump
      cases hpump
  · rw [step_handler_ne h (Ne.symm hc)]
    exact ⟨rfl,rfl⟩

theorem rooms_of_step (h : SignalServer.step query unmarshal S b = some S') (hb : sparesRooms b = true) :
    S'.rooms = S.rooms := by
  funext id
  rw [step_rooms h]
  cases b <;> first | rfl | cases hb

end Fits

section Verdicts
variable {query} {unmarshal} {s s' : State C H Msg} {a : Action C H Msg} {as : List (Action C H Msg)}
omit [DecidableEq C]

theorem verdict_congr (howner : s'.owner .rooms = s.owner .rooms)
    (hws : ∀ c, (s'.ws c).verdict? = (s.ws c).verdict?) : s'.verdict? = s.verdict? := by
  unfold State.verdict?
  rw [howner]
  cases s.owner .rooms with
  | none => rfl
  | some t =>
    cases t with
    | ws c => exact congrArg (Option.map fun empty => (c,empty)) (hws c)
    | pump c | health h | agents h => rfl

theorem verdict_eq_none {c : C} (howner : s.owner .rooms = some (.ws c))
    (hp : (s.ws c).verdict? = none) : s.verdict? = none := by
  unfold State.verdict?
  rw [howner]
  simp only [hp,Option.map_none]

theorem verdict_eq_some {c : C} {empty : Bool} (howner : s.owner .rooms = some (.ws c))
    (hp : (s.ws c).verdict? = some empty) : s.verdict? = some (c,empty) := by
  unfold State.verdict?
  rw [howner]
  simp only [hp,Option.map_some]

theorem of_verdict_eq_some {c : C} {empty : Bool} (h : s.verdict? = some (c,empty)) :
    s.owner .rooms = some (.ws c) ∧ (s.ws c).verdict? = some empty := by
  unfold State.verdict? at h
  split at h
  · rename_i d howner
    obtain ⟨empty',hp,heq⟩ := Option.map_eq_some_iff.mp h
    cases heq
    exact ⟨howner,hp⟩
  · cases h

theorem Quiet.same (hserver : s'.server = s.server) (hws : s'.ws = s.ws)
    (howner : s'.owner .rooms = s.owner .rooms) : Quiet query unmarshal s s' :=
  ⟨hserver,fun c h => by rwa [hws],verdict_congr howner fun c => by rw [hws]⟩

theorem WsPoint.verdict_locked (p : WsPoint C Msg) : p.locked.verdict? = p.verdict? := by
  cases p <;> rfl

theorem WsPoint.verdict_unlocked (p : WsPoint C Msg) : p.unlocked.verdict? = p.verdict? := by
  cases p <;> rfl

theorem WsPoint.verdict_of_wants {p : WsPoint C Msg} {id : String} {m : Mutex} (h : p.wants id = some m) :
    p.verdict? = none := by
  cases p <;> first | rfl | cases h

theorem WsPoint.verdict_of_unlocks_rooms {p : WsPoint C Msg} {id : String}
    (h : p.unlocks id = some .rooms) : p.verdict? = none := by
  cases p <;> first | rfl | cases h

theorem Steady.rooms_unique (h : Steady query unmarshal s) {c d : C}
    (hc : .rooms ∈ (s.ws c).held (roomID query c)) (hd : .rooms ∈ (s.ws d).held (roomID query d)) :
    c = d := by
  have heq : (Thread.ws c : Thread C H) = Thread.ws d :=
    h.agrees.unique (t := .ws c) (u := .ws d) hc hd
  exact Thread.ws.inj heq

theorem steady_start : Steady query unmarshal (State.start : State C H Msg) :=
  ⟨agrees_start,fun _ => trivial⟩

end Verdicts

section Steady
variable {query} {unmarshal} {s s' : State C H Msg} {a : Action C H Msg} {as : List (Action C H Msg)}

theorem settled_of_none (h : s.verdict? = none) : s.settled query = s.server := by
  rw [State.settled,h]

theorem settled_of_some {c : C} {empty : Bool} (h : s.verdict? = some (c,empty)) :
    s.settled query = finishDelete query s.server c empty := by
  rw [State.settled,h]

theorem Quiet.setWs {c : C} {p : WsPoint C Msg} (hserver : s'.server = s.server)
    (hws : s'.ws = Function.update s.ws c p) (howner : s'.owner .rooms = s.owner .rooms)
    (hp : (s.ws c).Fits query unmarshal s.server c → p.Fits query unmarshal s.server c)
    (hverdict : p.verdict? = (s.ws c).verdict?) :
    Quiet query unmarshal s s' := by
  refine ⟨hserver,fun d h => ?_,verdict_congr howner fun d => ?_⟩
  · rw [hws]
    by_cases hd : d = c
    · subst hd
      rw [Function.update_self]
      exact hp h
    · rwa [Function.update_of_ne hd]
  · rw [hws]
    by_cases hd : d = c
    · subst hd
      rw [Function.update_self,hverdict]
    · rw [Function.update_of_ne hd]

theorem quiet_arrive {b : SignalServer.Action C Msg} {m : Mutex}
    (henabled : enabled query s.server b = true) (houtside : (s.ws b.actor).isOutside = true)
    (hsection : section? query unmarshal s.server b = some m) :
    Quiet query unmarshal s (s.setWs b.actor (.before m b)) := by
  refine .setWs rfl rfl rfl (fun _ => ?_) ?_
  · cases b with
    | tryDelete c => exact henabled
    | pump c | pumpFail c | pumpClose c | connect c | spawnPump c | replayOffer c | closeSend c =>
      cases hsection
    | _ => exact ⟨⟨rfl,rfl⟩,henabled,hsection,nofun⟩
  · cases hpoint : s.ws b.actor with
    | outside => cases b <;> rfl
    | _ =>
      rw [hpoint] at houtside
      cases houtside

theorem Quiet.simulates (h : Quiet query unmarshal s s') :
    Simulates query unmarshal s s' := by
  left
  rw [State.settled,State.settled,h.verdict,h.server]

theorem finishDelete_step {S S' : SignalServer.State C Msg} {b : SignalServer.Action C Msg} {d : C}
    {empty : Bool} (h : SignalServer.step query unmarshal S b = some S') (hb : sparesRooms b = true)
    (hd : (threadOf b : Thread C H) ≠ .ws d) :
    SignalServer.step query unmarshal (finishDelete query S d empty) b =
      some (finishDelete query S' d empty) := by
  obtain ⟨henabled,rfl⟩ := step_eq_some.mp h
  exact step_eq_some.mpr ⟨(finishDelete_enabled hd).trans henabled,finishDelete_perform hb hd⟩

/-- A step of the machine without locks, taken by a goroutine that does not have a verdict to carry out. -/
theorem simulates_step {b : SignalServer.Action C Msg}
    (h : SignalServer.step query unmarshal s.server b = some s'.server) (hverdict : s'.verdict? = s.verdict?)
    (hb : ∀ d empty, s.verdict? = some (d,empty) →
      sparesRooms b = true ∧ (threadOf b : Thread C H) ≠ .ws d) :
    Simulates query unmarshal s s' := by
  right
  refine ⟨b,?_⟩
  cases hv : s.verdict? with
  | none => rwa [settled_of_none hv,settled_of_none (hverdict.trans hv)]
  | some v =>
    obtain ⟨d,empty⟩ := v
    obtain ⟨hspares,hd⟩ := hb d empty hv
    rw [settled_of_some hv,settled_of_some (hverdict.trans hv)]
    exact finishDelete_step h hspares hd

theorem Quiet.follows (h : Quiet query unmarshal s s')
    (hs : Steady query unmarshal s) : Follows query unmarshal s s' := by
  refine ⟨fun c => ?_,h.simulates⟩
  rw [h.server]
  exact h.fits c (hs.fits c)

/-- The end of a critical section of `c`: the points of the others still fit. -/
theorem Steady.fits_leave (h : Steady query unmarshal s) {c : C} {m : Mutex}
    (hws : s'.ws = Function.update s.ws c (.leaving m))
    (hhandler : ∀ d, d ≠ c → s'.server.handler d = s.server.handler d)
    (hrooms : .rooms ∈ (s.ws c).held (roomID query c) ∨ s'.server.rooms = s.server.rooms) (d : C) :
    (s'.ws d).Fits query unmarshal s'.server d := by
  rw [hws]
  by_cases hd : d = c
  · subst hd
    rw [Function.update_self]
    trivial
  · rw [Function.update_of_ne hd]
    refine (h.fits d).congr (by rw [hhandler d hd]) (by rw [hhandler d hd]) fun hheld => ?_
    rcases hrooms with hrooms | hrooms
    · exact absurd (h.rooms_unique hheld hrooms) hd
    · rw [hrooms]

theorem follows_free (h : Steady query unmarshal s) {b : SignalServer.Action C Msg}
    {server : SignalServer.State C Msg} (hsection : section? query unmarshal s.server b = none)
    (houtside : (threadOf b : Thread C H) = .ws b.actor → (s.ws b.actor).isOutside = true)
    (hstep : SignalServer.step query unmarshal s.server b = some server) :
    Follows query unmarshal s { s with server := server } := by
  have hspares := sparesRooms_of_free hsection
  have hother : ∀ c, (s.ws c).isOutside = false → isPump b = true ∨ b.actor ≠ c := by
    intro c hc
    cases hpump : isPump b with
    | true => exact .inl rfl
    | false =>
      refine .inr fun heq => ?_
      subst heq
      rw [houtside (by rw [threadOf_eq,hpump]; rfl)] at hc
      cases hc
  refine ⟨fun c => ?_,simulates_step hstep rfl fun d empty hv => ⟨hspares,?_⟩⟩
  · change (s.ws c).Fits query unmarshal server c
    cases hout : (s.ws c).isOutside with
    | true =>
      cases hpoint : s.ws c with
      | outside => trivial
      | _ =>
        rw [hpoint] at hout
        cases hout
    | false =>
      obtain ⟨hpc,hrm⟩ := handler_of_step hstep (hother c hout)
      exact (h.fits c).congr hpc hrm fun _ => by rw [rooms_of_step hstep hspares]
  · have hout : (s.ws d).isOutside = false := by
      have hverdict := (of_verdict_eq_some hv).2
      cases hpoint : s.ws d with
      | outside =>
        rw [hpoint] at hverdict
        cases hverdict
      | _ => rfl
    rw [threadOf_eq]
    rcases hother d hout with hpump | hne
    · rw [if_pos hpump]
      nofun
    · split
      · nofun
      · exact fun heq => hne (Thread.ws.inj heq)

theorem follows_entered (h : Steady query unmarshal s) {c : C} {b : SignalServer.Action C Msg} {m : Mutex}
    (hpoint : s.ws c = .entered b m) : Follows query unmarshal s
      ((s.withServer (roomID query c) (perform query unmarshal s.server b)).setWs c (.leaving m)) := by
  have hfits := h.fits c
  rw [hpoint] at hfits
  obtain ⟨⟨hpump,rfl⟩,henabled,hsection,_⟩ := hfits
  have hstep : SignalServer.step query unmarshal s.server b = some (perform query unmarshal s.server b) :=
    step_eq_some.mpr ⟨henabled,rfl⟩
  have hheld : m ∈ (s.ws b.actor).held (roomID query b.actor) := by
    rw [hpoint]
    exact List.mem_singleton.mpr rfl
  refine ⟨h.fits_leave rfl (fun d hd => step_handler_ne hstep hd) ?_,
    simulates_step hstep (verdict_congr rfl fun d => ?_) fun d empty hv => ?_⟩
  · by_cases hm : m = .rooms
    · exact .inl (hm ▸ hheld)
    · exact .inr (rooms_of_step hstep (sparesRooms_of_section hsection hm))
  · by_cases hd : d = b.actor
    · subst hd
      rw [hpoint]
      change (Function.update s.ws b.actor _ b.actor).verdict? = _
      rw [Function.update_self]
      rfl
    · change (Function.update s.ws b.actor _ d).verdict? = _
      rw [Function.update_of_ne hd]
  · obtain ⟨howner,hverdict⟩ := of_verdict_eq_some hv
    have hd : d ≠ b.actor := by
      intro hd
      rw [hd,hpoint] at hverdict
      cases hverdict
    have hm : m ≠ .rooms := by
      intro hm
      subst hm
      exact hd (h.rooms_unique ((h.agrees _ _).mp howner) hheld)
    refine ⟨sparesRooms_of_section hsection hm,?_⟩
    rw [threadOf_eq,hpump]
    exact fun heq => hd (Thread.ws.inj heq).symm

/-- `tryDelete` in one step. -/
theorem step_tryDelete {S : SignalServer.State C Msg} {c : C} {empty : Bool}
    (henabled : enabled query S (.tryDelete c) = true)
    (hempty : empty = (S.rooms (roomID query c)).any fun n => (S.heap (roomID query c) n).isEmpty) :
    SignalServer.step query unmarshal S (.tryDelete c) = some (finishDelete query S c empty) := by
  refine step_eq_some.mpr ⟨henabled,?_⟩
  subst hempty
  simp only [perform,State.tryDelete,finishDelete]
  cases S.rooms (roomID query c) with
  | none => rfl
  | some n =>
    simp only [Option.any_some]
    split <;> rfl

theorem follows_lookedUp (h : Steady query unmarshal s) {c : C} (hpoint : s.ws c = .lookingUp)
    (hrooms : s.server.rooms (roomID query c) = none) :
    Follows query unmarshal s
      ((s.withServer (roomID query c) (finishDelete query s.server c false)).setWs c (.leaving .rooms)) := by
  have hheld : .rooms ∈ (s.ws c).held (roomID query c) := by
    rw [hpoint]
    exact List.mem_singleton.mpr rfl
  have howner : s.owner .rooms = some (.ws c) := (h.agrees _ (.ws c)).mpr hheld
  have hbefore : s.verdict? = none := verdict_eq_none howner (by rw [hpoint]; rfl)
  have hfits := h.fits c
  rw [hpoint] at hfits
  refine ⟨h.fits_leave rfl (fun d hd => finishDelete_handler hd) (.inl hheld),
    simulates_step (step_tryDelete hfits (by rw [hrooms]; rfl)) ?_ fun d empty hv => ?_⟩
  · rw [hbefore]
    refine verdict_eq_none howner ?_
    change (Function.update s.ws c _ c).verdict? = _
    rw [Function.update_self]
    rfl
  · rw [hbefore] at hv
    cases hv

theorem follows_checking (h : Steady query unmarshal s) {c : C} {n : ℕ} (hpoint : s.ws c = .checking n) :
    Follows query unmarshal s
      (s.setWs c (.checked n (s.server.heap (roomID query c) n).isEmpty)) := by
  have hheld : .rooms ∈ (s.ws c).held (roomID query c) := by
    rw [hpoint]
    simp [WsPoint.held]
  have howner : s.owner .rooms = some (.ws c) := (h.agrees _ (.ws c)).mpr hheld
  have hfits := h.fits c
  rw [hpoint] at hfits
  constructor
  · intro d
    change (Function.update s.ws c _ d).Fits query unmarshal s.server d
    by_cases hd : d = c
    · subst hd
      rw [Function.update_self]
      exact hfits.1
    · rw [Function.update_of_ne hd]
      exact h.fits d
  · right
    refine ⟨.tryDelete c,?_⟩
    have hafter : (s.setWs c (.checked n (s.server.heap (roomID query c) n).isEmpty)).verdict? =
        some (c,(s.server.heap (roomID query c) n).isEmpty) := by
      refine verdict_eq_some howner ?_
      change (Function.update s.ws c _ c).verdict? = _
      rw [Function.update_self]
      rfl
    rw [settled_of_none (verdict_eq_none howner (by rw [hpoint]; rfl)),settled_of_some hafter]
    exact step_tryDelete hfits.1 (by rw [hfits.2]; rfl)

theorem follows_deciding (h : Steady query unmarshal s) {c : C} {empty : Bool}
    (hpoint : s.ws c = .deciding empty) : Follows query unmarshal s
      ((s.withServer (roomID query c) (finishDelete query s.server c empty)).setWs c (.leaving .rooms)) := by
  have hheld : .rooms ∈ (s.ws c).held (roomID query c) := by
    rw [hpoint]
    exact List.mem_singleton.mpr rfl
  have howner : s.owner .rooms = some (.ws c) := (h.agrees _ (.ws c)).mpr hheld
  refine ⟨h.fits_leave rfl (fun d hd => finishDelete_handler hd) (.inl hheld),.inl ?_⟩
  rw [settled_of_some (verdict_eq_some howner (by rw [hpoint]; rfl)),settled_of_none]
  · rfl
  · refine verdict_eq_none howner ?_
    change (Function.update s.ws c _ c).verdict? = _
    rw [Function.update_self]
    rfl

theorem follows_runWs (h : Steady query unmarshal s) {c : C} (hs : s.runWs query unmarshal c = some s') :
    Follows query unmarshal s s' := by
  unfold State.runWs at hs
  simp only at hs
  split at hs
  · rename_i hpoint
    cases hs
    exact follows_entered h hpoint
  · rename_i hpoint
    split at hs <;> cases hs
    · rename_i n hrooms
      refine Quiet.follows ?_ h
      refine .setWs rfl rfl rfl (fun hfits => ?_) (by rw [hpoint]; rfl)
      rw [hpoint] at hfits
      exact ⟨hfits,hrooms⟩
    · rename_i hrooms
      exact follows_lookedUp h hpoint hrooms
  · rename_i n hpoint
    cases hs
    exact follows_checking h hpoint
  · rename_i empty hpoint
    cases hs
    exact follows_deciding h hpoint
  · cases hs

variable [DecidableEq H]

theorem ws_locked (t : Thread C H) (c : C) :
    (s.locked t).ws c = if t = .ws c then (s.ws c).locked else s.ws c := by
  cases t with
  | ws d =>
    by_cases hd : d = c
    · subst hd
      simp [State.locked,State.setWs]
    · simp [State.locked,State.setWs,hd,Ne.symm hd]
  | _ => rfl

theorem ws_unlocked (t : Thread C H) (c : C) :
    (s.unlocked t).ws c = if t = .ws c then (s.ws c).unlocked else s.ws c := by
  cases t with
  | ws d =>
    by_cases hd : d = c
    · subst hd
      simp [State.unlocked,State.setWs]
    · simp [State.unlocked,State.setWs,hd,Ne.symm hd]
  | _ => rfl

/-- `Lock` moves one handler past its wait. -/
theorem quiet_lock {t : Thread C H} {m : Mutex} (hw : s.wants query t = some m)
    (hfree : s.owner m = none) :
    Quiet query unmarshal s ((s.locked t).setOwner m (some t)) := by
  have hws : ((s.locked t).setOwner m (some t)).ws = (s.locked t).ws := rfl
  have howner : ((s.locked t).setOwner m (some t)).owner = Function.update s.owner m (some t) := by
    cases t <;> rfl
  refine ⟨by cases t <;> rfl,fun c h => ?_,?_⟩
  · rw [hws,ws_locked]
    split
    · exact h.locked
    · exact h
  · by_cases hm : m = .rooms
    · subst hm
      have hbefore : s.verdict? = none := by
        rw [State.verdict?,hfree]
      rw [hbefore,State.verdict?,howner,Function.update_self]
      cases t with
      | ws c =>
        simp only [hws,ws_locked,if_true]
        rw [WsPoint.verdict_locked,WsPoint.verdict_of_wants hw]
        rfl
      | pump c | health g | agents g => rfl
    · refine verdict_congr (by rw [howner,Function.update_of_ne (Ne.symm hm)]) fun c => ?_
      rw [hws,ws_locked]
      split
      · exact WsPoint.verdict_locked _
      · rfl

theorem quiet_unlock {t : Thread C H} {m : Mutex} (hagrees : Agrees s.owner (s.held query))
    (hu : s.unlocks query t = some m) :
    Quiet query unmarshal s ((s.unlocked t).setOwner m none) := by
  have hws : ((s.unlocked t).setOwner m none).ws = (s.unlocked t).ws := rfl
  have howner : ((s.unlocked t).setOwner m none).owner = Function.update s.owner m none := by
    cases t <;> rfl
  refine ⟨by cases t <;> rfl,fun c h => ?_,?_⟩
  · rw [hws,ws_unlocked]
    split
    · exact h.unlocked
    · exact h
  · by_cases hm : m = .rooms
    · subst hm
      obtain ⟨rest,hheld,-,-⟩ := held_unlocked hu
      have hrooms : s.owner .rooms = some t := (hagrees _ _).mpr (hheld ▸ List.mem_cons_self ..)
      have hbefore : s.verdict? = none := by
        cases t with
        | ws c => exact verdict_eq_none hrooms (WsPoint.verdict_of_unlocks_rooms hu)
        | pump c | health g | agents g => rw [State.verdict?,hrooms]
      rw [hbefore,State.verdict?,howner,Function.update_self]
    · refine verdict_congr (by rw [howner,Function.update_of_ne (Ne.symm hm)]) fun c => ?_
      rw [hws,ws_unlocked]
      split
      · exact WsPoint.verdict_unlocked _
      · rfl

omit [DecidableEq C] in
theorem runAgents_same {h : H} (hs : s.runAgents h = some s') :
    s'.owner = s.owner ∧ s'.server = s.server ∧ s'.ws = s.ws := by
  unfold State.runAgents at hs
  split at hs
  · split at hs <;> cases hs <;> exact ⟨rfl,rfl,rfl⟩
  · cases hs
    exact ⟨rfl,rfl,rfl⟩
  · cases hs
    exact ⟨rfl,rfl,rfl⟩
  · cases hs

theorem follows_step (h : Steady query unmarshal s) (hs : step query unmarshal s a = some s') :
    Follows query unmarshal s s' := by
  cases a with
  | free b =>
    simp only [step] at hs
    split at hs
    · rename_i hb
      obtain ⟨server,hserver,rfl⟩ := Option.map_eq_some_iff.mp hs
      exact follows_free h hb.1 hb.2 hserver
    · cases hs
  | arrive b =>
    simp only [step] at hs
    split at hs
    · rename_i hb
      obtain ⟨m,hm,rfl⟩ := Option.map_eq_some_iff.mp hs
      exact (quiet_arrive hb.1 hb.2 hm).follows h
    · cases hs
  | request t method =>
    cases t with
    | ws c | pump c => cases hs
    | health g | agents g =>
      simp only [step] at hs
      split at hs <;> cases hs
      refine Quiet.follows ?_ h
      exact .same rfl rfl rfl
  | lock t =>
    obtain ⟨m,hm,hs⟩ := Option.bind_eq_some_iff.mp hs
    split at hs <;> cases hs
    rename_i hfree
    exact (quiet_lock hm hfree).follows h
  | run t =>
    cases t with
    | ws c => exact follows_runWs h hs
    | pump c => cases hs
    | health g =>
      simp only [step] at hs
      split at hs <;> cases hs
      refine Quiet.follows ?_ h
      exact .same rfl rfl rfl
    | agents g =>
      obtain ⟨howner,hserver,hws⟩ := runAgents_same hs
      exact (Quiet.same hserver hws (by rw [howner])).follows h
  | range g order =>
    simp only [step] at hs
    split at hs <;> cases hs
    refine Quiet.follows ?_ h
    exact .same rfl rfl rfl
  | unlock t =>
    obtain ⟨m,hm,rfl⟩ := Option.map_eq_some_iff.mp hs
    exact (quiet_unlock h.agrees hm).follows h

theorem steady (h : LocksRun query unmarshal as s) : Steady query unmarshal s :=
  h.invariant (P := fun _ s => Steady query unmarshal s) steady_start
    fun _ _ _ _ _ ih hs => ⟨agrees_step ih.agrees hs,(follows_step ih hs).1⟩

/-- The critical sections are atomic: every run of the machine with locks is a run of the machine that
takes them in one step. -/
theorem serverRun_of_locksRun (h : LocksRun query unmarshal as s) :
    ∃ bs, ServerRun query unmarshal bs (s.settled query) := by
  induction h with
  | init => exact ⟨[],.init⟩
  | next hrun hs ih =>
    obtain ⟨bs,hbs⟩ := ih
    rcases (follows_step (steady hrun) hs).2 with hsame | ⟨b,hstep⟩
    · exact ⟨bs,hsame ▸ hbs⟩
    · exact ⟨b :: bs,hbs.next hstep⟩

/-- So no handler panics over a closed channel while it holds a lock. -/
theorem locks_not_panicked (h : LocksRun query unmarshal as s) : s.server.panicked = false := by
  obtain ⟨bs,hbs⟩ := serverRun_of_locksRun h
  have hsettled : (s.settled query).panicked = s.server.panicked := by
    unfold State.settled
    split <;> rfl
  rw [← hsettled]
  exact not_panicked hbs

end Steady

end Machine

end Locks
end SignalServer
end AnyKvm
