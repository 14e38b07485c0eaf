import AnyKvm.AgentSession
import Mathlib.Logic.Function.Basic

/-! The flag that holds back the frames while no browser is connected.
`main` clears it at the end of a session, but it does not wait for the `webrtc` task of that session: a task
that is aborted runs on to its next suspension, and may see a connection come up until then. -/

namespace AnyKvm
namespace BackPressure

open Transition
open Agent (Event IceState)

/-- `webrtc::run` before its main loop, in it, on its way out after a lost connection, and gone. -/
inductive TaskPoint
  | gathering | looping | exiting | stopped
  deriving DecidableEq, Repr

/-- The task of a session. While it is `running`, a worker polls it; otherwise it is suspended. -/
structure Task where
  point : TaskPoint := .gathering
  running : Bool := false
  aborted : Bool := false
  iceConnected : Bool := false
  deriving DecidableEq, Repr

/-- `main` in its `select`, behind the `abort` of an arm, in its sleep, and after Ctrl-C. -/
inductive MainPoint
  | selecting | storing | sleeping | returned
  deriving DecidableEq, Repr

/-- The bridge tasks, from the capture channels to the broadcast channels. -/
inductive Medium
  | video | audio
  deriving DecidableEq, Repr

inductive BridgePoint
  | top | sleeping | draining | receiving
  deriving DecidableEq, Repr

structure Bridge where
  point : BridgePoint := .top
  wasIdle : Bool := true
  deriving DecidableEq, Repr

def Medium.capacity : Medium → ℕ
  | .video => 32
  | .audio => 64

/-- The tasks are numbered by their sessions; those of earlier sessions may still run. -/
structure State where
  main : MainPoint := .selecting
  session : ℕ := 0
  tasks : ℕ → Task := fun _ => {}
  peerConnected : Bool := false
  bridges : Medium → Bridge := fun _ => {}
  queued : Medium → ℕ := fun _ => 0

inductive Action
  | resume (k : ℕ)
  | suspend (k : ℕ)
  | enter (k : ℕ)
  | event (k : ℕ) (e : Event)
  | exit (k : ℕ)
  | fail (k : ℕ)
  | cancel (k : ℕ)
  | webrtcEnded
  | signalEnded
  | ctrlC
  | store
  | wake
  | checkPeer (m : Medium)
  | wakeBridge (m : Medium)
  | capture (m : Medium)
  | drain (m : Medium)
  | drained (m : Medium)
  | recv (m : Medium)
  deriving DecidableEq

namespace State
variable (s : State)

def setTask (k : ℕ) (t : Task) : State := { s with tasks := Function.update s.tasks k t }

def setBridge (m : Medium) (b : Bridge) : State := { s with bridges := Function.update s.bridges m b }

def setQueued (m : Medium) (n : ℕ) : State := { s with queued := Function.update s.queued m n }

@[simp] theorem tasks_setTask_self (k : ℕ) (t : Task) : (s.setTask k t).tasks k = t := Function.update_self ..

theorem tasks_setTask_of_ne {j k : ℕ} (h : j ≠ k) (t : Task) : (s.setTask k t).tasks j = s.tasks j :=
  Function.update_of_ne h ..

@[simp] theorem bridges_setBridge_self (m : Medium) (b : Bridge) : (s.setBridge m b).bridges m = b :=
  Function.update_self ..

theorem bridges_setBridge_of_ne {j m : Medium} (h : j ≠ m) (b : Bridge) : (s.setBridge m b).bridges j = s.bridges j :=
  Function.update_of_ne h ..

@[simp] theorem queued_setQueued_self (m : Medium) (n : ℕ) : (s.setQueued m n).queued m = n :=
  Function.update_self ..

theorem queued_setQueued_of_ne {j m : Medium} (h : j ≠ m) (n : ℕ) : (s.setQueued m n).queued j = s.queued j :=
  Function.update_of_ne h ..

/-- `handle_event`, as far as it touches the flag. -/
def handleEvent (k : ℕ) : Event → State
  | .connected => { s.setTask k { s.tasks k with iceConnected := true } with peerConnected := true }
  | .iceConnectionStateChange .disconnected =>
    if (s.tasks k).iceConnected then
      { s.setTask k { s.tasks k with point := .exiting } with peerConnected := false }
    else s
  | _ => s

def stop (k : ℕ) : State := s.setTask k { s.tasks k with point := .stopped, running := false }

/-- The top of a bridge's loop. -/
def checkPeer (m : Medium) : State :=
  if s.peerConnected = false then s.setBridge m ⟨.sleeping,true⟩
  else if (s.bridges m).wasIdle then s.setBridge m ⟨.draining,false⟩
  else s.setBridge m { s.bridges m with point := .receiving }

/-- The bridge has seen the flag up and has not come back to look at it. -/
def PastCheck (m : Medium) : Prop := (s.bridges m).point = .draining ∨ (s.bridges m).point = .receiving

/-- Such a bridge, and a frame for it in its channel. -/
def Fed (m : Medium) : Prop := s.PastCheck m ∧ 0 < s.queued m

instance (m : Medium) : Decidable (s.PastCheck m) := inferInstanceAs (Decidable (_ ∨ _))

instance (m : Medium) : Decidable (s.Fed m) := inferInstanceAs (Decidable (_ ∧ _))

end State

/-- A task that is polled runs until it suspends itself or returns; one that is aborted is not polled
again. After `handle_event` has asked for the end of the session, the flag is cleared once more. -/
def step (s : State) : Action → Option State
  | .resume k =>
    if k ≤ s.session ∧ (s.tasks k).running = false ∧ (s.tasks k).aborted = false ∧ (s.tasks k).point ≠ .stopped then
      some (s.setTask k { s.tasks k with running := true })
    else none
  | .suspend k =>
    if (s.tasks k).running = true ∧ (s.tasks k).point ≠ .exiting then
      some (s.setTask k { s.tasks k with running := false })
    else none
  | .enter k =>
    if (s.tasks k).running = true ∧ (s.tasks k).point = .gathering then
      some (s.setTask k { s.tasks k with point := .looping })
    else none
  | .event k e =>
    if (s.tasks k).running = true ∧ (s.tasks k).point = .looping then some (s.handleEvent k e) else none
  | .exit k =>
    if (s.tasks k).point = .exiting then some { s.stop k with peerConnected := false } else none
  | .fail k =>
    if (s.tasks k).running = true ∧ (s.tasks k).point ≠ .exiting then some (s.stop k) else none
  | .cancel k =>
    if (s.tasks k).running = false ∧ (s.tasks k).aborted = true ∧ (s.tasks k).point ≠ .stopped then
      some (s.stop k)
    else none
  | .webrtcEnded =>
    if s.main = .selecting ∧ (s.tasks s.session).point = .stopped then some { s with main := .storing } else none
  | .signalEnded =>
    if s.main = .selecting then
      some { s.setTask s.session { s.tasks s.session with aborted := true } with main := .storing }
    else none
  | .ctrlC => if s.main = .selecting then some { s with main := .returned } else none
  | .store => if s.main = .storing then some { s with main := .sleeping, peerConnected := false } else none
  | .wake => if s.main = .sleeping then some { s with main := .selecting, session := s.session + 1 } else none
  | .checkPeer m => if (s.bridges m).point = .top then some (s.checkPeer m) else none
  | .wakeBridge m =>
    if (s.bridges m).point = .sleeping then some (s.setBridge m { s.bridges m with point := .top }) else none
  | .capture m => if s.queued m < m.capacity then some (s.setQueued m (s.queued m + 1)) else none
  | .drain m =>
    if (s.bridges m).point = .draining ∧ 0 < s.queued m then some (s.setQueued m (s.queued m - 1)) else none
  | .drained m =>
    if (s.bridges m).point = .draining ∧ s.queued m = 0 then
      some (s.setBridge m { s.bridges m with point := .receiving })
    else none
  | .recv m =>
    if (s.bridges m).point = .receiving ∧ 0 < s.queued m then
      some ((s.setQueued m (s.queued m - 1)).setBridge m { s.bridges m with point := .top })
    else none

/-- `main` sleeps, and the task of the last session is gone. -/
def NoSession (s : State) : Prop := s.main = .sleeping ∧ (s.tasks s.session).point = .stopped

instance (s : State) : Decidable (NoSession s) :=
  inferInstanceAs (Decidable (s.main = .sleeping ∧ (s.tasks s.session).point = .stopped))

/-- While there is no session the flag is down, so a bridge that looks at it goes to sleep, and no bridge takes
a frame. -/
def HeldBack (s : State) : Prop :=
  NoSession s → s.peerConnected = false ∧
    ∀ m, ((s.bridges m).point = .top → ((s.checkPeer m).bridges m).point = .sleeping) ∧
      step s (.drain m) = none ∧ step s (.recv m) = none

/-- The flag by what has been done to it: a connection raises it; the loss of a connection, the return after
that and `main` take it down. -/
def raised : List Action → Bool
  | [] => false
  | .event _ .connected :: _ => true
  | .event k (.iceConnectionStateChange .disconnected) :: as =>
    if .event k .connected ∈ as then false else raised as
  | .exit _ :: _ | .store :: _ => false
  | _ :: as => raised as

/-- No connection comes up while there is no session, and none that came up since `main` has cleared the flag
is still there when the task of the last session is dropped or fails. When a session is over, no bridge that is
past its look at the flag has a frame in its channel, and none is put there until the next. -/
def StaysDown (as : List Action) (s : State) : Action → Prop
  | .event _ .connected => ¬ NoSession s
  | .fail k | .cancel k => s.main = .sleeping → k = s.session → raised as = false ∧ ∀ m, ¬ s.Fed m
  | .exit k => s.main = .sleeping → k = s.session → ∀ m, ¬ s.Fed m
  | .store => (s.tasks s.session).point = .stopped → ∀ m, ¬ s.Fed m
  | .capture m => NoSession s → ¬ s.PastCheck m
  | _ => True

variable {s s' : State} {a : Action} {as : List Action}

theorem fed_iff {m : Medium} : ¬ s.Fed m ↔ step s (.drain m) = none ∧ step s (.recv m) = none := by
  rw [State.Fed,State.PastCheck]
  simp only [step,ite_eq_right_iff,reduceCtorEq,imp_false]
  tauto

theorem heldBack_iff : HeldBack s ↔ (NoSession s → s.peerConnected = false ∧ ∀ m, ¬ s.Fed m) := by
  refine forall_congr' fun _ => and_congr_right fun hflag => forall_congr' fun m => ?_
  rw [fed_iff,and_iff_right]
  intro _
  rw [State.checkPeer,if_pos hflag,State.bridges_setBridge_self]

/-- An action that neither raises the flag nor takes it down, after which no task is newly gone, and that brings
no frame. -/
def Action.Quiet : Action → Prop
  | .event _ _ | .exit _ | .fail _ | .cancel _ | .store | .capture _ => False
  | _ => True

theorem raised_of_quiet (h : a.Quiet) (as : List Action) : raised (a :: as) = raised as := by
  cases a with
  | event | exit | store => exact h.elim
  | _ => rfl

theorem staysDown_of_quiet (h : a.Quiet) (as : List Action) (s : State) : StaysDown as s a := by
  cases a with
  | event | fail | cancel | exit | store | capture => exact h.elim
  | _ => trivial

inductive Effect (s s' : State) : Action → Prop
  | event (k : ℕ) (e : Event) (h : s' = s.handleEvent k e) : Effect s s' (.event k e)
  | stop {a : Action} (k : ℕ) (ha : a = .fail k ∨ a = .cancel k) (h : s' = s.stop k) : Effect s s' a
  | exit (k : ℕ) (h : s' = { s.stop k with peerConnected := false }) : Effect s s' (.exit k)
  | store (h : s' = { s with main := .sleeping, peerConnected := false }) : Effect s s' .store
  | capture (m : Medium) (h : s' = s.setQueued m (s.queued m + 1)) : Effect s s' (.capture m)
  | quiet {a : Action} (ha : a.Quiet) (hflag : s'.peerConnected = s.peerConnected)
      (htasks : ∀ k, (s'.tasks k).iceConnected = (s.tasks k).iceConnected)
      (hsession : NoSession s' → NoSession s)
      (hfed : s.peerConnected = false → (∀ m, ¬ s.Fed m) → ∀ m, ¬ s'.Fed m) : Effect s s' a

theorem iceConnected_setTask {k : ℕ} {t : Task} (ht : t.iceConnected = (s.tasks k).iceConnected) (j : ℕ) :
    ((s.setTask k t).tasks j).iceConnected = (s.tasks j).iceConnected := by
  by_cases hj : j = k
  · rw [hj,State.tasks_setTask_self,ht]
  · rw [State.tasks_setTask_of_ne s hj]

theorem noSession_setTask {k : ℕ} {t : Task} (ht : t.point = .stopped ↔ (s.tasks k).point = .stopped) :
    NoSession (s.setTask k t) ↔ NoSession s := by
  refine and_congr_right fun _ => ?_
  change ((s.setTask k t).tasks s.session).point = _ ↔ _
  by_cases hk : s.session = k
  · rw [hk,State.tasks_setTask_self,ht]
  · rw [State.tasks_setTask_of_ne s hk]

theorem effect_setTask (ha : a.Quiet) {k : ℕ} {t : Task} (hconnected : t.iceConnected = (s.tasks k).iceConnected)
    (hpoint : t.point = .stopped ↔ (s.tasks k).point = .stopped) : Effect s (s.setTask k t) a :=
  .quiet ha rfl (iceConnected_setTask hconnected) (noSession_setTask hpoint).mp fun _ h => h

theorem fed_setBridge {m : Medium} {b : Bridge}
    (hb : s.queued m = 0 ∨ b.point ≠ .draining ∧ b.point ≠ .receiving) (h : ∀ j, ¬ s.Fed j) (j : Medium) :
    ¬ (s.setBridge m b).Fed j := by
  by_cases hj : j = m
  · subst hj
    rintro ⟨hpast,hqueued⟩
    rw [State.PastCheck,State.bridges_setBridge_self] at hpast
    rcases hb with hempty | ⟨hdraining,hreceiving⟩
    · exact absurd hempty hqueued.ne'
    · exact hpast.elim hdraining hreceiving
  · rintro ⟨hpast,hqueued⟩
    rw [State.PastCheck,State.bridges_setBridge_of_ne s hj] at hpast
    exact h j ⟨hpast,hqueued⟩

theorem effect_bridge (ha : a.Quiet) (m : Medium) (b : Bridge)
    (hb : s.peerConnected = false → s.queued m = 0 ∨ b.point ≠ .draining ∧ b.point ≠ .receiving) :
    Effect s (s.setBridge m b) a :=
  .quiet ha rfl (fun _ => rfl) id fun hflag => fed_setBridge (hb hflag)

theorem effect_checkPeer (m : Medium) : Effect s (s.checkPeer m) (.checkPeer m) := by
  unfold State.checkPeer
  split
  · exact effect_bridge (by trivial) m _ fun _ => .inr ⟨nofun,nofun⟩
  · rename_i hup
    split <;> exact effect_bridge (by trivial) m _ fun hflag => absurd hflag hup

theorem effect_take (ha : a.Quiet) {m : Medium} (hfed : s.Fed m) (hflag : s'.peerConnected = s.peerConnected)
    (htasks : s'.tasks = s.tasks) (hsession : NoSession s' → NoSession s) : Effect s s' a :=
  .quiet ha hflag (fun k => by rw [htasks]) hsession fun _ hnone => absurd hfed (hnone m)

theorem step_effect (hstep : step s a = some s') : Effect s s' a := by
  cases a with
  | event k e =>
    simp only [step] at hstep
    split at hstep <;> cases hstep
    exact .event k e rfl
  | fail k =>
    simp only [step] at hstep
    split at hstep <;> cases hstep
    exact .stop k (.inl rfl) rfl
  | cancel k =>
    simp only [step] at hstep
    split at hstep <;> cases hstep
    exact .stop k (.inr rfl) rfl
  | exit k =>
    simp only [step] at hstep
    split at hstep <;> cases hstep
    exact .exit k rfl
  | store =>
    simp only [step] at hstep
    split at hstep <;> cases hstep
    exact .store rfl
  | capture m =>
    simp only [step] at hstep
    split at hstep <;> cases hstep
    exact .capture m rfl
  | resume k | suspend k =>
    simp only [step] at hstep
    split at hstep <;> cases hstep
    exact effect_setTask (by trivial) rfl Iff.rfl
  | enter k =>
    simp only [step] at hstep
    split at hstep
    · rename_i hpoint
      cases hstep
      exact effect_setTask (by trivial) rfl (by simp [hpoint.2])
    · cases hstep
  | signalEnded =>
    simp only [step] at hstep
    split at hstep <;> cases hstep
    exact .quiet trivial rfl (iceConnected_setTask (s := s) (k := s.session) rfl) nofun fun _ h => h
  | webrtcEnded | ctrlC | wake =>
    simp only [step] at hstep
    split at hstep <;> cases hstep
    exact .quiet trivial rfl (fun _ => rfl) nofun fun _ h => h
  | checkPeer m =>
    simp only [step] at hstep
    split at hstep <;> cases hstep
    exact effect_checkPeer m
  | wakeBridge m =>
    simp only [step] at hstep
    split at hstep <;> cases hstep
    exact effect_bridge (by trivial) m _ fun _ => .inr ⟨nofun,nofun⟩
  | drained m =>
    simp only [step] at hstep
    split at hstep
    · rename_i hdraining
      cases hstep
      exact effect_bridge (by trivial) m _ fun _ => .inl hdraining.2
    · cases hstep
  | drain m =>
    simp only [step] at hstep
    split at hstep
    · rename_i hdraining
      cases hstep
      exact effect_take (by trivial) ⟨.inl hdraining.1,hdraining.2⟩ rfl rfl id
    · cases hstep
  | recv m =>
    simp only [step] at hstep
    split at hstep
    · rename_i hreceiving
      cases hstep
      exact effect_take (by trivial) ⟨.inr hreceiving.1,hreceiving.2⟩ rfl rfl id
    · cases hstep

structure Recorded (as : List Action) (s : State) : Prop where
  flag : s.peerConnected = raised as
  connected : ∀ k, (s.tasks k).iceConnected = true ↔ .event k .connected ∈ as

theorem recorded_start : Recorded [] {} := ⟨rfl,fun _ => by simp⟩

theorem Recorded.quiet (h : Recorded as s) (hnew : ∀ k, a ≠ .event k .connected)
    (hflag : s'.peerConnected = raised (a :: as))
    (htasks : ∀ k, (s'.tasks k).iceConnected = (s.tasks k).iceConnected) : Recorded (a :: as) s' := by
  refine ⟨hflag,fun k => ?_⟩
  rw [htasks,h.connected k,List.mem_cons,or_iff_right fun heq => hnew k heq.symm]

theorem Recorded.event (h : Recorded as s) (k : ℕ) (e : Event) : Recorded (.event k e :: as) (s.handleEvent k e) := by
  cases e with
  | connected =>
    refine ⟨rfl,fun j => ?_⟩
    change ((s.setTask k _).tasks j).iceConnected = true ↔ _
    by_cases hj : j = k
    · rw [hj,State.tasks_setTask_self]
      simp
    · rw [State.tasks_setTask_of_ne s hj,h.connected j,List.mem_cons,or_iff_right]
      simp [hj]
  | iceConnectionStateChange ice =>
    cases ice with
    | disconnected =>
      have hknown := h.connected k
      by_cases hconnected : (s.tasks k).iceConnected = true
      · rw [State.handleEvent,if_pos hconnected]
        refine h.quiet (by simp) ?_ (iceConnected_setTask (s := s) (k := k) rfl)
        rw [raised,if_pos (hknown.mp hconnected)]
      · rw [State.handleEvent,if_neg hconnected]
        refine h.quiet (by simp) ?_ fun _ => rfl
        rw [raised,if_neg (hconnected ∘ hknown.mpr)]
        exact h.flag
    | _ => exact h.quiet (by simp) h.flag fun _ => rfl
  | _ => exact h.quiet (by simp) h.flag fun _ => rfl

theorem Recorded.effect (h : Recorded as s) (heffect : Effect s s' a) : Recorded (a :: as) s' := by
  cases heffect with
  | event k e hs =>
    rw [hs]
    exact h.event k e
  | stop k ha hs =>
    rw [hs]
    rcases ha with rfl | rfl
    · exact h.quiet nofun h.flag (iceConnected_setTask (s := s) (k := k) rfl)
    · exact h.quiet nofun h.flag (iceConnected_setTask (s := s) (k := k) rfl)
  | exit k hs =>
    rw [hs]
    exact h.quiet nofun rfl (iceConnected_setTask (s := s) (k := k) rfl)
  | store hs =>
    rw [hs]
    exact h.quiet nofun rfl fun _ => rfl
  | capture m hs =>
    rw [hs]
    exact h.quiet nofun h.flag fun _ => rfl
  | quiet ha hflag htasks _ _ =>
    refine h.quiet ?_ ?_ htasks
    · rintro k rfl
      exact ha
    · rw [hflag,raised_of_quiet ha]
      exact h.flag

theorem HeldBack.quiet (h : HeldBack s) (hflag : s'.peerConnected = s.peerConnected)
    (hsession : NoSession s' → NoSession s)
    (hfed : s.peerConnected = false → (∀ m, ¬ s.Fed m) → ∀ m, ¬ s'.Fed m) : HeldBack s' := by
  rw [heldBack_iff] at *
  intro hno
  obtain ⟨hdown,hnone⟩ := h (hsession hno)
  exact ⟨hflag.trans hdown,hfed hdown hnone⟩

theorem noSession_stop (k : ℕ) :
    NoSession (s.stop k) ↔ s.main = .sleeping ∧ (k = s.session ∨ (s.tasks s.session).point = .stopped) := by
  refine and_congr_right fun _ => ?_
  change ((s.setTask k _).tasks s.session).point = _ ↔ _
  by_cases hk : s.session = k
  · rw [hk,State.tasks_setTask_self]
    simp
  · rw [State.tasks_setTask_of_ne s hk,or_iff_right (Ne.symm hk)]

theorem noSession_of_exiting {k : ℕ} {t : Task} (ht : t.point = .exiting) (h : NoSession (s.setTask k t)) :
    NoSession s := by
  refine ⟨h.1,?_⟩
  have hpoint : ((s.setTask k t).tasks s.session).point = .stopped := h.2
  by_cases hk : s.session = k
  · rw [hk,State.tasks_setTask_self,ht] at hpoint
    cases hpoint
  · rwa [State.tasks_setTask_of_ne s hk] at hpoint

theorem HeldBack.event (h : HeldBack s) (k : ℕ) (e : Event) :
    StaysDown as s (.event k e) ↔ HeldBack (s.handleEvent k e) := by
  cases e with
  | connected =>
    have hsame : NoSession (s.handleEvent k .connected) ↔ NoSession s :=
      noSession_setTask (s := s) (k := k) (t := { s.tasks k with iceConnected := true }) Iff.rfl
    rw [heldBack_iff,hsame]
    exact ⟨fun hno hs => absurd hs hno,fun hdown hs => nomatch (hdown hs).1⟩
  | iceConnectionStateChange ice =>
    refine iff_of_true trivial ?_
    cases ice with
    | disconnected =>
      by_cases hconnected : (s.tasks k).iceConnected = true
      · rw [State.handleEvent,if_pos hconnected,heldBack_iff]
        intro hno
        have hstill : NoSession s := noSession_of_exiting (k := k) (t := { s.tasks k with point := .exiting }) rfl hno
        exact ⟨rfl,(heldBack_iff.mp h hstill).2⟩
      · rw [State.handleEvent,if_neg hconnected]
        exact h
    | _ => exact h
  | _ => exact iff_of_true trivial h

/-- The task of the last session goes while `main` sleeps: then the flag must be down already, and no bridge
may be able to take a frame. -/
theorem HeldBack.stop (h : HeldBack s) (hrecorded : Recorded as s) (k : ℕ) :
    (s.main = .sleeping → k = s.session → raised as = false ∧ ∀ m, ¬ s.Fed m) ↔ HeldBack (s.stop k) := by
  rw [heldBack_iff,noSession_stop,← hrecorded.flag]
  constructor
  · rintro hover ⟨hmain,hk | hpoint⟩
    · exact hover hmain hk
    · exact (heldBack_iff (s := s)).mp h ⟨hmain,hpoint⟩
  · intro hheld hmain hk
    exact hheld ⟨hmain,.inl hk⟩

theorem HeldBack.exit (h : HeldBack s) (k : ℕ) :
    (s.main = .sleeping → k = s.session → ∀ m, ¬ s.Fed m) ↔ HeldBack { s.stop k with peerConnected := false } := by
  rw [heldBack_iff]
  change _ ↔ (NoSession (s.stop k) → _)
  rw [noSession_stop]
  constructor
  · rintro hover ⟨hmain,hk | hpoint⟩
    · exact ⟨rfl,hover hmain hk⟩
    · have hno : NoSession s := ⟨hmain,hpoint⟩
      exact ⟨rfl,(heldBack_iff.mp h hno).2⟩
  · intro hheld hmain hk
    exact (hheld ⟨hmain,.inl hk⟩).2

theorem heldBack_store : ((s.tasks s.session).point = .stopped → ∀ m, ¬ s.Fed m) ↔
    HeldBack { s with main := .sleeping, peerConnected := false } := by
  rw [heldBack_iff]
  exact ⟨fun hnone hno => ⟨rfl,hnone hno.2⟩,fun hheld hpoint => (hheld ⟨rfl,hpoint⟩).2⟩

theorem HeldBack.capture (h : HeldBack s) (m : Medium) :
    (NoSession s → ¬ s.PastCheck m) ↔ HeldBack (s.setQueued m (s.queued m + 1)) := by
  rw [heldBack_iff]
  change _ ↔ (NoSession s → s.peerConnected = false ∧ _)
  refine forall_congr' fun hno => ?_
  obtain ⟨hdown,hnone⟩ := heldBack_iff.mp h hno
  rw [and_iff_right hdown]
  constructor
  · rintro hpast j ⟨hj,hqueued⟩
    by_cases hjm : j = m
    · exact hpast (hjm ▸ hj)
    · rw [State.queued_setQueued_of_ne s hjm] at hqueued
      exact hnone j ⟨hj,hqueued⟩
  · intro hfed hpast
    refine hfed m ⟨hpast,?_⟩
    rw [State.queued_setQueued_self]
    exact Nat.succ_pos _

theorem HeldBack.effect (h : HeldBack s) (hrecorded : Recorded as s) (heffect : Effect s s' a) :
    StaysDown as s a ↔ HeldBack s' := by
  cases heffect with
  | event k e hs =>
    rw [hs]
    exact h.event k e
  | stop k ha hs =>
    rw [hs]
    rcases ha with rfl | rfl
    · exact h.stop hrecorded k
    · exact h.stop hrecorded k
  | exit k hs =>
    rw [hs]
    exact h.exit k
  | store hs =>
    rw [hs]
    exact heldBack_store
  | capture m hs =>
    rw [hs]
    exact h.capture m
  | quiet ha hflag _ hsession hfed =>
    exact iff_of_true (staysDown_of_quiet ha as s) (h.quiet hflag hsession hfed)

/-- The frames are held back between the sessions of a run exactly if no connection outlasts `main`'s clearing of
the flag and no bridge that is still past its look at it has a frame to take. -/
theorem always_heldBack_iff (h : Run step {} as s) :
    Always step {} (fun _ => HeldBack) as ↔ GuardedRun step {} StaysDown as s := by
  have hrecorded : ∀ {as s}, Run step {} as s → Recorded as s := fun hrun =>
    hrun.invariant (P := Recorded) recorded_start fun _ _ _ _ _ h hstep => h.effect (step_effect hstep)
  refine h.always_iff_guarded (fun hno => nomatch hno.1) fun as s a s' hrun hheld hstep => ?_
  exact hheld.effect (hrecorded hrun.run) (step_effect hstep)

/-- A session whose browser connects and then goes away. The bridge takes one frame more and goes to sleep; the
frame that comes while there is no session waits. -/
def connectAndLose : List Action :=
  [.resume 0,.enter 0,.capture .video,.event 0 .connected,.checkPeer .video,.drain .video,.drained .video,
    .capture .video,.recv .video,.checkPeer .video,.event 0 (.iceConnectionStateChange .disconnected),.exit 0,
    .webrtcEnded,.capture .video,.recv .video,.store,.checkPeer .video,.capture .video,.wakeBridge .video]

theorem always_heldBack_connectAndLose : ∃ s, Run step {} connectAndLose.reverse s ∧
    (NoSession s ∧ s.queued .video = 1) ∧ Always step {} (fun _ => HeldBack) connectAndLose.reverse ∧
    GuardedRun step {} StaysDown connectAndLose.reverse s := by
  obtain ⟨s,hrun,hp⟩ := exists_run_of_replay step {} connectAndLose
    (fun s => NoSession s ∧ s.queued .video = 1) (by decide)
  have hkept : Always step {} (fun _ => HeldBack) connectAndLose.reverse := by
    intro as t hsuf ht
    have hdown : Always step {} (fun _ t => decide (NoSession t → t.peerConnected = false ∧ ¬ t.Fed .video ∧
        ¬ t.Fed .audio) = true) connectAndLose.reverse := always_of_replay connectAndLose _ (by decide)
    refine heldBack_iff.mpr fun hno => ?_
    obtain ⟨hflag,hvideo,haudio⟩ := of_decide_eq_true (hdown as t hsuf ht) hno
    exact ⟨hflag,fun m => by cases m <;> assumption⟩
  exact ⟨s,hrun,of_decide_eq_true hp,hkept,(always_heldBack_iff hrun).mp hkept⟩

/-- The signalling ends and `main` aborts the other task, but that one is just being polled: its connection
comes up after `main` has cleared the flag. -/
def lateConnection : List Action :=
  [.capture .video,.resume 0,.enter 0,.signalEnded,.store,.event 0 .connected,.suspend 0,.cancel 0,.checkPeer .video]

/-- The session ends while the bridge waits for a frame. -/
def lateFrame : List Action :=
  [.resume 0,.enter 0,.event 0 .connected,.checkPeer .video,.drained .video,
    .event 0 (.iceConnectionStateChange .disconnected),.exit 0,.webrtcEnded,.store,.capture .video]

/-- In both the bridge takes a frame while there is no session, in the second although the flag is down. -/
theorem late_connection_takes_frames :
    (∃ s, Run step {} lateConnection.reverse s ∧ ¬ HeldBack s ∧ s.peerConnected = true ∧
      (step s (.drain .video)).isSome) ∧
    ∃ s, Run step {} lateFrame.reverse s ∧ ¬ HeldBack s ∧ s.peerConnected = false ∧
      (step s (.recv .video)).isSome := by
  constructor
  · obtain ⟨s,hrun,hp⟩ := exists_run_of_replay step {} lateConnection
      (fun s => NoSession s ∧ s.peerConnected = true ∧ (step s (.drain .video)).isSome) (by decide)
    obtain ⟨hno,hup,htake⟩ := of_decide_eq_true hp
    refine ⟨s,hrun,fun hheld => ?_,hup,htake⟩
    rw [(hheld hno).1] at hup
    cases hup
  · obtain ⟨s,hrun,hp⟩ := exists_run_of_replay step {} lateFrame
      (fun s => NoSession s ∧ s.peerConnected = false ∧ (step s (.recv .video)).isSome) (by decide)
    obtain ⟨hno,hdown,htake⟩ := of_decide_eq_true hp
    refine ⟨s,hrun,fun hheld => ?_,hdown,htake⟩
    rw [((hheld hno).2 .video).2.2] at htake
    cases htake

end BackPressure
end AnyKvm
