import AnyKvm.FrameFlow
import Mathlib.Data.List.Chain

/-! Whether the frames that are passed to `send_video` in a session can be decoded.
Frames are dropped in five places, and only the capture thread looks at the request for an intra
frame, so it may put out the intra frame ahead of the drop. -/

namespace AnyKvm
namespace Pipeline

open Transition
open Agent (Event)

/-- The frame is an intra frame or follows the newest of `frames`. -/
def Continues (frames : List Frame) (frame : Frame) : Prop :=
  frame.intra = true ∨ ∃ before ∈ frames.head?, before.number + 1 = frame.number

/-- Newest first: each frame is an intra frame or follows its predecessor. -/
def Decodable : List Frame → Prop
  | [] => True
  | frame :: frames => Continues frames frame ∧ Decodable frames

/-- `keyframe_flag` after an action: the capture thread takes it, and four events raise it. -/
def flagAfter (flag : Bool) : Action → Bool
  | .takeFlag => false
  | .event .connected | .event .keyframeRequest | .event (.iceConnectionStateChange .connected)
  | .event (.iceConnectionStateChange .completed) => true
  | _ => flag

/-- An intra frame has been requested since the capture thread last looked at the flag. -/
def requested (as : List Action) : Bool := as.foldr (fun a flag => flagAfter flag a) false

namespace State
variable (s : State)

/-- The bridge drains its queue before it takes another frame from it. -/
def Drains : Prop := s.wasIdle = true ∨ s.bridge = .draining

/-- The session's frames are passed to `send_video`. -/
def Connected : Prop := ∃ session ∈ s.session, session.iceConnected = true

/-- There is no frame before frame `n`, or that has been dropped or belongs to an earlier session. -/
def Missing (n : ℕ) : Prop := n = 0 ∨ n - 1 ∈ s.gone

/-- The frame that the capture thread is about to encode or has encoded. -/
def upcoming : Option Frame :=
  match s.capture with
  | .encoding => some ⟨s.next,s.intraNext⟩
  | .sending frame => some frame
  | _ => none

/-- No frame is behind the bridge's drain, but for an intra frame of the capture thread. -/
def Clear (session : Session) : Prop :=
  session.rx.unread.items = [] ∧ s.bridge.held = [] ∧
    (s.Drains ∨ s.queue.items = [] ∧ ∀ frame ∈ s.upcoming, frame.intra = true)

instance : Decidable s.Drains := inferInstanceAs (Decidable (_ ∨ _))

instance : Decidable s.Connected := inferInstanceAs (Decidable (∃ session ∈ s.session, _))

instance (n : ℕ) : Decidable (s.Missing n) := inferInstanceAs (Decidable (_ ∨ _))

instance (session : Session) : Decidable (s.Clear session) := inferInstanceAs (Decidable (_ ∧ _))

end State

/-- ICE is connected when no frame is behind the drain. In a connected session, the frame of the capture thread
at the end of a drain is an intra frame if its predecessor has been dropped; when the thread looks at the
flag after such a drop, an intra frame has been requested; and after a lag the oldest frame kept is one. -/
def Requested (as : List Action) (s : State) : Action → Prop
  | .event .connected => ∀ session ∈ s.session, session.iceConnected = false → s.Clear session
  | .drain => s.Connected → s.queue.items = [] → ∀ frame ∈ s.upcoming, s.Missing frame.number → frame.intra = true
  | .takeFlag => s.Connected → ¬ s.Drains → s.Missing s.next → requested as = true ∨ s.intraNext = true
  | .tryRecv => ∀ session ∈ s.session, session.iceConnected = true → 0 < session.rx.missed →
    ∀ frame ∈ session.rx.unread.items.head?, frame.intra = true
  | _ => True

instance (as : List Action) (s : State) (a : Action) : Decidable (Requested as s a) := by
  unfold Requested
  split <;> infer_instance

/-- The frames that will not be drained any more and are not in the broadcast channel yet, oldest first. -/
def State.bridged (s : State) : List Frame :=
  s.bridge.held ++ if s.Drains then [] else s.queue.items ++ s.capture.held

/-- The frames that will not be drained any more and have not been passed to `send_video`, oldest first. -/
def State.ahead (s : State) (session : Session) : List Frame := session.rx.unread.items ++ s.bridged

/-- The frames ahead continue what has been sent, but for the gap of a lag, and so will the next frame. -/
structure State.Clean (s : State) (session : Session) : Prop where
  decodable : Decodable session.sent
  chain : (s.ahead session).IsChain fun before frame => Continues [before] frame
  first : session.rx.missed = 0 → ∀ frame ∈ (s.ahead session).head?, Continues session.sent frame
  next : ¬ s.Drains → s.capture = .encoding →
    Continues ((s.ahead session).reverse ++ session.sent) ⟨s.next,s.intraNext⟩

structure State.Served (s : State) (session : Session) : Prop where
  silent : session.iceConnected = false → session.sent = []
  full : 0 < session.rx.missed → session.rx.unread.items ≠ []
  clean : session.iceConnected = true → s.Clean session

structure Sound (s : State) : Prop where
  awake : s.wasIdle = true → s.bridge = .top ∨ s.bridge = .sleeping
  served : ∀ session, s.session = some session → s.Served session

variable {as : List Action} {s s' : State} {a : Action} {session session' : Session}

theorem keyframeFlag_tryRecv (session : Session) : (s.tryRecv session).keyframeFlag = s.keyframeFlag := by
  cases hrecv : session.rx.tryRecv with
  | mk result rx =>
    cases hice : session.iceConnected <;> cases result <;> simp [State.tryRecv,hrecv,hice]

theorem keyframeFlag_step (hs : step s a = some s') : s'.keyframeFlag = flagAfter s.keyframeFlag a := by
  cases a with
  | event e =>
    obtain ⟨session,_,hs⟩ := Option.bind_eq_some_iff.mp hs
    cases (Option.ite_none_right_eq_some.mp hs).2
    cases e with
    | iceConnectionStateChange ice =>
      cases ice with
      | disconnected =>
        rw [State.handleEvent]
        split <;> rfl
      | _ => rfl
    | _ => rfl
  | tryRecv =>
    obtain ⟨session,_,hs⟩ := Option.bind_eq_some_iff.mp hs
    cases (Option.ite_none_right_eq_some.mp hs).2
    exact keyframeFlag_tryRecv session
  | iterate =>
    obtain ⟨session,_,hs⟩ := Option.bind_eq_some_iff.mp hs
    cases (Option.ite_none_right_eq_some.mp hs).2
    rfl
  | quit =>
    obtain ⟨session,_,rfl⟩ := Option.map_eq_some_iff.mp hs
    rfl
  | storeFalse =>
    cases hs
    rfl
  | recv =>
    obtain ⟨_,hs⟩ := Option.ite_none_right_eq_some.mp hs
    obtain ⟨_,_,rfl⟩ := Option.map_eq_some_iff.mp hs
    rfl
  | trySend =>
    simp only [step] at hs
    split at hs
    · cases hs
      rw [State.trySend]
      split <;> rfl
    · cases hs
  | send =>
    simp only [step] at hs
    split at hs
    · cases hs
      rw [State.send]
      split <;> rfl
    · cases hs
  | encode output =>
    cases (Option.ite_none_right_eq_some.mp hs).2
    cases output <;> rfl
  | checkPeer =>
    cases (Option.ite_none_right_eq_some.mp hs).2
    rw [State.checkPeer]
    split
    · rfl
    · split <;> rfl
  | drain =>
    cases (Option.ite_none_right_eq_some.mp hs).2
    rw [State.drain]
    split <;> rfl
  | _ =>
    cases (Option.ite_none_right_eq_some.mp hs).2
    rfl

theorem keyframeFlag_eq (h : PipelineRun as s) : s.keyframeFlag = requested as := by
  refine h.invariant (P := fun as s => s.keyframeFlag = requested as) rfl ?_
  intro as s a s' _ ih hs
  rw [keyframeFlag_step hs,ih]
  rfl

theorem live_eq (hsession : s.session = some session) (hdrains : ¬ s.Drains) :
    s.live = session.sent.reverse ++ s.ahead session := by
  simp [State.live,State.streamed,State.ahead,State.bridged,hsession,hdrains]

theorem bridged_congr (hheld : s'.bridge.held = s.bridge.held) (hdrains : s'.Drains ↔ s.Drains)
    (hqueued : s'.queue.items ++ s'.capture.held = s.queue.items ++ s.capture.held) : s'.bridged = s.bridged := by
  simp only [State.bridged,hheld,hdrains,hqueued]

@[simp] theorem bridged_setSession (session : Option Session) : State.bridged { s with session := session } = s.bridged :=
  bridged_congr (by rfl) (by rfl) (by rfl)

theorem State.Clean.of_shorter (h : s.Clean session) (hahead : s'.ahead session <+: s.ahead session)
    (hnext : ¬ s'.Drains → s'.capture = .encoding →
      Continues ((s'.ahead session).reverse ++ session.sent) ⟨s'.next,s'.intraNext⟩) : s'.Clean session := by
  obtain ⟨rest,hrest⟩ := hahead
  have hchain := h.chain
  rw [← hrest] at hchain
  refine ⟨h.decodable,hchain.left_of_append,fun hmissed frame hframe => ?_,hnext⟩
  refine h.first hmissed frame ?_
  rw [← hrest,List.head?_append,Option.mem_def.mp hframe]
  rfl

theorem State.Clean.of_eq (h : s.Clean session) (hahead : s'.ahead session = s.ahead session)
    (hcapture : s'.capture ≠ .encoding) : s'.Clean session :=
  h.of_shorter (hahead ▸ List.prefix_refl _) fun _ hencoding => absurd hencoding hcapture

theorem State.Clean.extend (h : s.Clean session) {f : Frame} (hahead : s'.ahead session = s.ahead session ++ [f])
    (hframe : Continues ((s.ahead session).reverse ++ session.sent) f) (hcapture : s'.capture ≠ .encoding) :
    s'.Clean session := by
  refine ⟨h.decodable,?_,?_,fun _ hencoding => absurd hencoding hcapture⟩
  · rw [hahead]
    refine h.chain.append (List.isChain_singleton _) fun last hlast f' hf => ?_
    cases hf
    refine hframe.imp_right ?_
    rintro ⟨before,hbefore,hnumber⟩
    rw [List.head?_append,List.head?_reverse,Option.mem_def.mp hlast] at hbefore
    cases hbefore
    exact ⟨_,rfl,hnumber⟩
  · intro hmissed f' hf
    rw [hahead,List.head?_append] at hf
    cases hhead : (s.ahead session).head? with
    | some f'' =>
      rw [hhead] at hf
      cases hf
      exact h.first hmissed f' hhead
    | none =>
      rw [hhead] at hf
      cases hf
      rwa [List.head?_eq_none_iff.mp hhead] at hframe

theorem Sound.keep (h : Sound s) (hsession : s'.session = s.session)
    (hawake : s'.wasIdle = true → s'.bridge = .top ∨ s'.bridge = .sleeping)
    (hclean : ∀ session, s.session = some session → session.iceConnected = true → s.Clean session →
      s'.Clean session) : Sound s' := by
  refine ⟨hawake,fun session hs => ?_⟩
  rw [hsession] at hs
  obtain ⟨hsilent,hfull,hcl⟩ := h.served session hs
  exact ⟨hsilent,hfull,fun hice => hclean session hs hice (hcl hice)⟩

theorem Sound.capture (h : Sound s) {c : CapturePoint} (hheld : c.held = s.capture.held) (hcapture : c ≠ .encoding)
    (intraNext : Bool) : Sound { s with capture := c, intraNext := intraNext } := by
  refine h.keep rfl h.awake fun session _ _ hclean => hclean.of_eq ?_ hcapture
  exact congrArg _ (bridged_congr (by rfl) (by rfl) (by rw [← hheld]))

theorem Sound.takeFlag (h : Sound s) (hrun : PipelineRun as s) (hpoint : s.capture = .ready)
    (hguard : Requested as s .takeFlag) : Sound { s with
      capture := .encoding, intraNext := s.intraNext || s.keyframeFlag, keyframeFlag := false } := by
  refine h.keep rfl h.awake fun session hsession hice hclean => ?_
  have hahead : State.ahead { s with
      capture := .encoding, intraNext := s.intraNext || s.keyframeFlag, keyframeFlag := false } session =
        s.ahead session := congrArg _ (bridged_congr (by rfl) (by rfl) (by rw [hpoint]; rfl))
  refine hclean.of_shorter (hahead ▸ List.prefix_refl _) fun hdrains _ => ?_
  change ¬ s.Drains at hdrains
  rw [hahead]
  by_cases hmissing : s.Missing s.next
  · left
    change (s.intraNext || s.keyframeFlag) = true
    rw [keyframeFlag_eq hrun,Bool.or_eq_true]
    exact (hguard ⟨session,hsession,hice⟩ hdrains hmissing).symm
  · obtain ⟨hne,hgone⟩ := not_or.mp hmissing
    refine .inr ((account hrun).follows_next ?_ hne hgone)
    rw [live_eq hsession hdrains,List.reverse_append,List.reverse_reverse]

theorem Sound.encode (h : Sound s) (hpoint : s.capture = .encoding) {output : Option Bool}
    (hintra : s.intraNext = true → output ≠ some false) : Sound (s.encode output) := by
  cases output with
  | none => exact h.capture (c := .top) (by rw [hpoint]; rfl) (by simp) s.intraNext
  | some intra =>
    refine h.keep rfl h.awake fun session _ _ hclean => ?_
    by_cases hdrains : s.Drains
    · refine hclean.of_eq ?_ (by simp [State.encode])
      have hdrains' : (s.encode (some intra)).Drains := hdrains
      simp only [State.ahead,State.bridged,hdrains,hdrains',if_true]
      rfl
    · have hdrains' : ¬ (s.encode (some intra)).Drains := hdrains
      refine hclean.extend (f := ⟨s.next,intra⟩) ?_ ?_ (by simp [State.encode])
      · simp only [State.ahead,State.bridged,hdrains,hdrains',if_false,hpoint,CapturePoint.held,List.append_nil]
        simp [State.encode]
      · refine (hclean.next hdrains hpoint).imp_left fun hnext => ?_
        cases intra with
        | true => rfl
        | false => exact absurd rfl (hintra hnext)

theorem Sound.trySend (h : Sound s) {frame : Frame} (hpoint : s.capture = .sending frame) :
    Sound (s.trySend frame) := by
  unfold State.trySend
  cases hpush : s.queue.push? frame with
  | some queue =>
    refine h.keep rfl h.awake fun session _ _ hclean => hclean.of_eq ?_ (by simp)
    simp [State.ahead,State.bridged,State.Drains,hpoint,CapturePoint.held,BoundedQueue.items_of_push? hpush]
  | none =>
    refine h.keep rfl h.awake fun session _ _ hclean => hclean.of_shorter ?_ (by simp)
    by_cases hdrains : s.Drains
    · simp only [State.ahead,State.bridged,State.Drains] at hdrains ⊢
      simp [hdrains]
    · simp only [State.ahead,State.bridged,State.Drains] at hdrains ⊢
      simp [hdrains,hpoint,CapturePoint.held]

theorem Sound.checkPeer (h : Sound s) (hpoint : s.bridge = .top) : Sound s.checkPeer := by
  unfold State.checkPeer
  split
  · refine h.keep rfl (fun _ => .inr rfl) fun session _ _ hclean => hclean.of_shorter ?_ fun hdrains => ?_
    · simp [State.ahead,State.bridged,State.Drains,hpoint,BridgePoint.held]
    · exact absurd (.inl rfl) hdrains
  · split
    · rename_i hidle
      refine h.keep rfl (by simp) fun session _ _ hclean => hclean.of_shorter ?_ fun hdrains => ?_
      · simp [State.ahead,State.bridged,State.Drains,hpoint,hidle,BridgePoint.held]
      · exact absurd (.inr rfl) hdrains
    · rename_i hidle
      have hahead : ∀ session, State.ahead { s with bridge := .receiving } session = s.ahead session := by
        intro session
        simp [State.ahead,State.bridged,State.Drains,hpoint,hidle,BridgePoint.held]
      refine h.keep rfl (fun hidle' => absurd hidle' hidle) fun session _ _ hclean => ?_
      refine hclean.of_shorter (hahead session ▸ List.prefix_refl _) fun _ hencoding => ?_
      rw [hahead]
      exact hclean.next (by simp [State.Drains,hidle,hpoint]) hencoding

theorem Sound.wake (h : Sound s) (hpoint : s.bridge = .sleeping) : Sound { s with bridge := .top } := by
  have hahead : ∀ session, State.ahead { s with bridge := .top } session = s.ahead session := by
    intro session
    simp [State.ahead,State.bridged,State.Drains,hpoint,BridgePoint.held]
  refine h.keep rfl (fun _ => .inl rfl) fun session _ _ hclean => ?_
  refine hclean.of_shorter (hahead session ▸ List.prefix_refl _) fun hdrains hencoding => ?_
  rw [hahead]
  refine hclean.next ?_ hencoding
  simpa [State.Drains,hpoint] using hdrains

theorem Sound.wasIdle_eq (h : Sound s) (htop : s.bridge ≠ .top) (hsleeping : s.bridge ≠ .sleeping) :
    s.wasIdle = false := by
  cases hidle : s.wasIdle with
  | false => rfl
  | true => exact (h.awake hidle).elim (absurd · htop) (absurd · hsleeping)

/-- The drain ends: from now on the frame of the capture thread is ahead. -/
theorem Sound.drainEnd (h : Sound s) (hrun : PipelineRun as s) (hpoint : s.bridge = .draining)
    (hqueue : s.queue.items = []) (hguard : Requested as s .drain) : Sound { s with bridge := .receiving } := by
  have hidle := h.wasIdle_eq (by simp [hpoint]) (by simp [hpoint])
  refine h.keep rfl (by simp [hidle]) fun session hsession hice hclean => ?_
  have hmissing := hguard ⟨session,hsession,hice⟩ hqueue
  have hbefore : s.ahead session = session.rx.unread.items := by
    simp [State.ahead,State.bridged,State.Drains,hpoint,BridgePoint.held]
  have hafter : State.ahead { s with bridge := .receiving } session =
      session.rx.unread.items ++ s.capture.held := by
    simp [State.ahead,State.bridged,State.Drains,hidle,hqueue,BridgePoint.held]
  have hlive : s.live = (session.rx.unread.items.reverse ++ session.sent).reverse ++ s.capture.held := by
    simp [State.live,State.streamed,hsession,hqueue,hpoint,BridgePoint.held]
  cases hcapture : s.capture with
  | top | ready =>
    simp only [hcapture,CapturePoint.held,List.append_nil] at hafter
    exact hclean.of_eq (hafter.trans hbefore.symm) (by simp)
  | encoding =>
    simp only [hcapture,CapturePoint.held,List.append_nil] at hafter hlive
    refine hclean.of_shorter (by rw [hafter,hbefore]) fun _ _ => ?_
    rw [hafter]
    by_cases hgone : s.Missing s.next
    · exact .inl (hmissing ⟨s.next,s.intraNext⟩ (by simp [State.upcoming,hcapture]) hgone)
    · obtain ⟨hne,hgone⟩ := not_or.mp hgone
      exact .inr ((account hrun).follows_next hlive hne hgone)
  | sending frame =>
    rw [hcapture,CapturePoint.held] at hafter hlive
    refine hclean.extend (f := frame) (by rw [hafter,hbefore]) ?_ (by simp)
    rw [hbefore]
    by_cases hgone : s.Missing frame.number
    · exact .inl (hmissing frame (by simp [State.upcoming,hcapture]) hgone)
    · obtain ⟨hne,hgone⟩ := not_or.mp hgone
      exact .inr ((account hrun).follows hlive hne hgone)

theorem Sound.drain (h : Sound s) (hrun : PipelineRun as s) (hpoint : s.bridge = .draining)
    (hguard : Requested as s .drain) : Sound s.drain := by
  unfold State.drain
  cases hpop : s.queue.pop? with
  | some r =>
    refine h.keep rfl h.awake fun session _ _ hclean => hclean.of_shorter ?_ fun hdrains => ?_
    · simp [State.ahead,State.bridged,State.Drains,hpoint]
    · exact absurd (.inr hpoint) hdrains
  | none => exact h.drainEnd hrun hpoint (BoundedQueue.pop?_eq_none.mp hpop) hguard

theorem Sound.recv (h : Sound s) (hpoint : s.bridge = .receiving) {frame : Frame} {queue : BoundedQueue Frame 32}
    (hpop : s.queue.pop? = some (frame,queue)) : Sound { s with bridge := .sending frame, queue := queue } := by
  have hidle := h.wasIdle_eq (by simp [hpoint]) (by simp [hpoint])
  have hahead : ∀ session, State.ahead { s with bridge := .sending frame, queue := queue } session =
      s.ahead session := by
    intro session
    simp [State.ahead,State.bridged,State.Drains,hpoint,hidle,BridgePoint.held,BoundedQueue.pop?_eq_some.mp hpop]
  refine h.keep rfl (by simp [hidle]) fun session _ _ hclean => ?_
  refine hclean.of_shorter (hahead session ▸ List.prefix_refl _) fun _ hencoding => ?_
  rw [hahead]
  exact hclean.next (by simp [State.Drains,hidle,hpoint]) hencoding

theorem items_push_ne_nil (rx : Receiver) (frame : Frame) : (rx.push frame).unread.items ≠ [] := by
  intro hnil
  have hpush := pushed rx frame
  rw [hnil,List.append_nil] at hpush
  have hlength := congrArg List.length hpush
  have hevicted : rx.evicted.length ≤ rx.unread.items.length := by
    unfold Receiver.evicted
    split
    · exact List.length_take_le' ..
    · exact Nat.zero_le _
  rw [List.length_append,List.length_singleton] at hlength
  omega

theorem missed_push (rx : Receiver) (frame : Frame) (h : (rx.push frame).missed = 0) :
    rx.evicted = [] ∧ rx.missed = 0 := by
  unfold Receiver.push at h
  split at h
  · rename_i hpush
    obtain ⟨hlt,_⟩ := BoundedQueue.push?_eq_some.mp hpush
    have hfull : rx.unread.isFull = false := by simpa [BoundedQueue.isFull] using hlt
    exact ⟨by simp [Receiver.evicted,hfull],h⟩
  · cases h

theorem Sound.send (h : Sound s) {frame : Frame} (hpoint : s.bridge = .sending frame) : Sound (s.send frame) := by
  have hidle := h.wasIdle_eq (by simp [hpoint]) (by simp [hpoint])
  unfold State.send
  cases hsession : s.session with
  | none => exact ⟨fun _ => .inl rfl,by simp⟩
  | some session =>
    obtain ⟨hsilent,hfull,hclean⟩ := h.served session hsession
    refine ⟨fun _ => .inl rfl,fun session' hs => ?_⟩
    cases hs
    refine ⟨hsilent,fun _ => items_push_ne_nil session.rx frame,fun hice => ?_⟩
    let s' : State := { s with bridge := .top, gone := session.rx.evicted.map Frame.number ++ s.gone }
    let session' : Session := { session with rx := session.rx.push frame }
    have hahead : s.ahead session = session.rx.evicted ++ s'.ahead session' := by
      have hbefore : s.bridged = frame :: (s.queue.items ++ s.capture.held) := by
        simp [State.bridged,State.Drains,hpoint,hidle,BridgePoint.held]
      have hafter : s'.bridged = s.queue.items ++ s.capture.held := by
        simp [s',State.bridged,State.Drains,hidle,BridgePoint.held]
      rw [State.ahead,State.ahead,hbefore,hafter,← List.append_assoc,← pushed,List.append_assoc,List.singleton_append]
    have hne : s'.ahead session' ≠ [] := List.append_ne_nil_of_left_ne_nil (items_push_ne_nil _ _) _
    obtain ⟨hdecodable,hchain,hfirst,hnext⟩ := hclean hice
    rw [hahead] at hchain hfirst hnext
    refine ⟨hdecodable,hchain.right_of_append,fun hmissed => ?_,fun _ hencoding => ?_⟩
    · obtain ⟨hevicted,hmissed⟩ := missed_push _ _ hmissed
      rw [hevicted] at hfirst
      exact hfirst hmissed
    · have hcontinues := hnext (by simp [State.Drains,hidle,hpoint]) hencoding
      obtain ⟨last,rest,hlast⟩ := List.exists_cons_of_ne_nil (List.reverse_ne_nil_iff.mpr hne)
      rw [List.reverse_append,hlast] at hcontinues
      change Continues ((s'.ahead session').reverse ++ session.sent) _
      rw [hlast]
      exact hcontinues

theorem Sound.setSession (h : Sound s) (hsession : s.session = some session) (hrx : session'.rx = session.rx)
    (hsent : session'.sent = session.sent) (hice : session'.iceConnected = session.iceConnected) :
    Sound { s with session := some session' } := by
  refine ⟨h.awake,fun _ hs => ?_⟩
  cases hs
  obtain ⟨hsilent,hfull,hclean⟩ := h.served session hsession
  refine ⟨by rwa [hice,hsent],by rwa [hrx],fun hice' => ?_⟩
  obtain ⟨hdecodable,hchain,hfirst,hnext⟩ := hclean (hice ▸ hice')
  have hahead : State.ahead { s with session := some session' } session' = s.ahead session := by
    simp only [State.ahead,hrx,bridged_setSession]
  refine ⟨by rwa [hsent],by rwa [hahead],?_,?_⟩
  · rwa [hahead,hrx,hsent]
  · rw [hahead,hsent]
    exact hnext

theorem missed_of_tryRecv {rx rx' : Receiver} {result : TryRecv} (h : rx.tryRecv = (result,rx')) :
    rx'.missed = 0 ∧ (rx.missed = 0 ∨ result = .lagged) := by
  unfold Receiver.tryRecv at h
  split at h
  · cases h
    exact ⟨rfl,.inr rfl⟩
  · rename_i hmissed
    have hmissed : rx.missed = 0 := Nat.eq_zero_of_not_pos hmissed
    split at h <;> cases h <;> exact ⟨hmissed,.inl hmissed⟩

/-- What has been passed to `send_video` after a `try_recv`. -/
def Session.passed (session : Session) : TryRecv → List Frame
  | .ok frame => if session.iceConnected then frame :: session.sent else session.sent
  | _ => session.sent

theorem tryRecv_eq {result : TryRecv} {rx : Receiver} (hrecv : session.rx.tryRecv = (result,rx)) :
    ∃ point gone, s.tryRecv session = { s with
      session := some { session with point := point, rx := rx, sent := session.passed result }, gone := gone } := by
  cases hice : session.iceConnected with
  | true => exact ⟨.polling,s.gone,by cases result <;> simp [State.tryRecv,Session.passed,hrecv,hice]⟩
  | false =>
    cases result with
    | ok frame => exact ⟨session.point,frame.number :: s.gone,by simp [State.tryRecv,Session.passed,hrecv,hice]⟩
    | lagged | empty => exact ⟨.polling,s.gone,by simp [State.tryRecv,Session.passed,hrecv,hice]⟩

theorem State.Clean.tryRecv (h : s.Clean session) (hice : session.iceConnected = true) {result : TryRecv}
    {rx : Receiver} (hrecv : session.rx.tryRecv = (result,rx)) (point : WebrtcPoint)
    (hlag : 0 < session.rx.missed → ∀ frame ∈ (s.ahead session).head?, frame.intra = true) :
    s.Clean { session with point := point, rx := rx, sent := session.passed result } := by
  obtain ⟨hdecodable,hchain,hfirst,hnext⟩ := h
  have hitems := items_of_tryRecv hrecv
  have hkept : ∀ frame ∈ (s.ahead session).head?, Continues session.sent frame := by
    intro frame hframe
    rcases Nat.eq_zero_or_pos session.rx.missed with hmissed | hmissed
    · exact hfirst hmissed frame hframe
    · exact .inl (hlag hmissed frame hframe)
  cases result with
  | ok frame =>
    have hahead : s.ahead session = frame :: (rx.unread.items ++ s.bridged) := by simp [State.ahead,hitems]
    have hsent : session.passed (.ok frame) = frame :: session.sent := if_pos hice
    rw [hahead] at hchain hkept hnext
    rw [hsent]
    rw [List.isChain_cons] at hchain
    refine ⟨⟨hkept frame rfl,hdecodable⟩,hchain.2,fun _ => hchain.1,fun hdrains hencoding => ?_⟩
    simpa [State.ahead] using hnext hdrains hencoding
  | lagged | empty =>
    have hahead : s.ahead session = rx.unread.items ++ s.bridged := by simp [State.ahead,hitems]
    rw [hahead] at hchain hkept hnext
    exact ⟨hdecodable,hchain,fun _ => hkept,hnext⟩

theorem Sound.tryRecv (h : Sound s) (hsession : s.session = some session) (hguard : Requested as s .tryRecv) :
    Sound (s.tryRecv session) := by
  obtain ⟨hsilent,hfull,hclean⟩ := h.served session hsession
  cases hrecv : session.rx.tryRecv with
  | mk result rx =>
    obtain ⟨point,gone,hs'⟩ := tryRecv_eq (s := s) hrecv
    have hmissed : rx.missed = 0 := (missed_of_tryRecv hrecv).1
    rw [hs']
    refine ⟨h.awake,fun session' hsession' => ?_⟩
    cases hsession'
    refine ⟨fun hice => ?_,fun hpos => absurd hmissed hpos.ne',fun hice => ?_⟩
    · have hice' : session.iceConnected = false := hice
      cases result with
      | ok frame => exact (if_neg (by simp [hice'])).trans (hsilent hice)
      | lagged | empty => exact hsilent hice
    · have hlag : 0 < session.rx.missed → ∀ frame ∈ (s.ahead session).head?, frame.intra = true := by
        intro hpos frame hframe
        rw [State.ahead,List.head?_append_of_ne_nil _ (hfull hpos)] at hframe
        exact hguard session hsession hice hpos frame hframe
      obtain ⟨hdecodable,hchain,hfirst,hnext⟩ := (hclean hice).tryRecv hice hrecv point hlag
      have hbridged : State.bridged { s with
          session := some { session with point := point, rx := rx, sent := session.passed result }, gone := gone } =
            s.bridged := bridged_congr (by rfl) (by rfl) (by rfl)
      refine ⟨hdecodable,?_,?_,?_⟩
      · rwa [State.ahead,hbridged]
      · rwa [State.ahead,hbridged]
      · rw [State.ahead,hbridged]
        exact hnext

/-- The session starts with the frames that the drain lets through from now on. -/
theorem State.Clear.clean (h : s.Clear session) (hsent : session.sent = []) : s.Clean session := by
  obtain ⟨hunread,hheld,hclear⟩ := h
  by_cases hdrains : s.Drains
  · have hahead : s.ahead session = [] := by simp [State.ahead,State.bridged,hunread,hheld,hdrains]
    refine ⟨by rw [hsent]; trivial,by rw [hahead]; exact .nil,?_,fun hno => absurd hdrains hno⟩
    intro _ frame hframe
    rw [hahead] at hframe
    cases hframe
  · obtain ⟨hqueue,hupcoming⟩ := hclear.resolve_left hdrains
    have hahead : s.ahead session = s.capture.held := by
      simp [State.ahead,State.bridged,hunread,hheld,hdrains,hqueue]
    have hintra : ∀ frame ∈ s.capture.held, frame.intra = true := by
      intro frame hframe
      cases hcapture : s.capture with
      | sending f =>
        rw [hcapture] at hframe
        cases List.mem_singleton.mp hframe
        exact hupcoming _ (by simp [State.upcoming,hcapture])
      | top | ready | encoding =>
        rw [hcapture] at hframe
        cases hframe
    refine ⟨by rw [hsent]; trivial,?_,?_,?_⟩
    · rw [hahead]
      cases s.capture with
      | sending f => exact .singleton f
      | top | ready | encoding => exact .nil
    · intro _ frame hframe
      rw [hahead] at hframe
      exact .inl (hintra frame (List.mem_of_mem_head? hframe))
    · intro _ hencoding
      exact .inl (hupcoming ⟨s.next,s.intraNext⟩ (by simp [State.upcoming,hencoding]))

theorem Sound.connected (h : Sound s) (hsession : s.session = some session)
    (hguard : Requested as s (.event .connected)) : Sound (s.handleEvent session .connected) := by
  obtain ⟨hsilent,hfull,hclean⟩ := h.served session hsession
  refine ⟨h.awake,fun session' hs => ?_⟩
  cases hs
  have hserved : s.Clean session := by
    cases hice : session.iceConnected with
    | true => exact hclean hice
    | false => exact (hguard session hsession hice).clean (hsilent hice)
  obtain ⟨hdecodable,hchain,hfirst,hnext⟩ := hserved
  have hbridged : (s.handleEvent session .connected).bridged = s.bridged :=
    bridged_congr (by rfl) (by rfl) (by rfl)
  refine ⟨by simp,hfull,fun _ => ⟨hdecodable,?_,?_,?_⟩⟩
  · rwa [State.ahead,hbridged]
  · rwa [State.ahead,hbridged]
  · rw [State.ahead,hbridged]
    exact hnext

theorem Sound.setFlags (h : Sound s) (keyframeFlag peerConnected : Bool) :
    Sound { s with keyframeFlag := keyframeFlag, peerConnected := peerConnected } := by
  have hbridged : State.bridged { s with keyframeFlag := keyframeFlag, peerConnected := peerConnected } = s.bridged :=
    bridged_congr (by rfl) (by rfl) (by rfl)
  refine h.keep rfl h.awake fun session _ _ hclean => ?_
  refine hclean.of_shorter (by rw [State.ahead,hbridged]; exact List.prefix_refl _) fun hdrains hencoding => ?_
  rw [State.ahead,hbridged]
  exact hclean.next hdrains hencoding

theorem Sound.handleEvent (h : Sound s) (hsession : s.session = some session) {e : Event}
    (hguard : Requested as s (.event e)) : Sound (s.handleEvent session e) := by
  have hflag : Sound { s with keyframeFlag := true } := h.setFlags true s.peerConnected
  cases e with
  | connected => exact h.connected hsession hguard
  | keyframeRequest => exact hflag
  | channelData data => exact h
  | other => exact h
  | iceConnectionStateChange state =>
    cases state with
    | connected => exact hflag
    | completed => exact hflag
    | new => exact h
    | checking => exact h
    | disconnected =>
      cases hice : session.iceConnected with
      | true =>
        rw [State.handleEvent,if_pos hice]
        exact ⟨h.awake,by simp [State.endSession]⟩
      | false =>
        rw [State.handleEvent,if_neg (by simp [hice])]
        exact h

theorem Sound.step (h : Sound s) (hrun : PipelineRun as s) (hguard : Requested as s a)
    (hs : Pipeline.step s a = some s') : Sound s' := by
  cases a with
  | newEncoder =>
    obtain ⟨hheld,hs⟩ := Option.ite_none_right_eq_some.mp hs
    cases hs
    exact h.capture (c := .top) hheld.symm (by simp) true
  | checkCapacity =>
    obtain ⟨⟨hpoint,_⟩,hs⟩ := Option.ite_none_right_eq_some.mp hs
    cases hs
    exact h.capture (c := .ready) (by rw [hpoint]; rfl) (by simp) s.intraNext
  | takeFlag =>
    obtain ⟨hpoint,hs⟩ := Option.ite_none_right_eq_some.mp hs
    cases hs
    exact h.takeFlag hrun hpoint hguard
  | decodeFailed =>
    obtain ⟨hpoint,hs⟩ := Option.ite_none_right_eq_some.mp hs
    cases hs
    exact h.capture (c := .top) (by rw [hpoint]; rfl) (by simp) s.intraNext
  | encode output =>
    obtain ⟨⟨hpoint,hintra⟩,hs⟩ := Option.ite_none_right_eq_some.mp hs
    cases hs
    exact h.encode hpoint hintra
  | trySend =>
    simp only [Pipeline.step] at hs
    split at hs
    · rename_i frame hpoint
      cases hs
      exact h.trySend hpoint
    · cases hs
  | checkPeer =>
    obtain ⟨hpoint,hs⟩ := Option.ite_none_right_eq_some.mp hs
    cases hs
    exact h.checkPeer hpoint
  | wake =>
    obtain ⟨hpoint,hs⟩ := Option.ite_none_right_eq_some.mp hs
    cases hs
    exact h.wake hpoint
  | drain =>
    obtain ⟨hpoint,hs⟩ := Option.ite_none_right_eq_some.mp hs
    cases hs
    exact h.drain hrun hpoint hguard
  | recv =>
    obtain ⟨hpoint,hs⟩ := Option.ite_none_right_eq_some.mp hs
    obtain ⟨_,hpop,rfl⟩ := Option.map_eq_some_iff.mp hs
    exact h.recv hpoint hpop
  | send =>
    simp only [Pipeline.step] at hs
    split at hs
    · rename_i frame hpoint
      cases hs
      exact h.send hpoint
    · cases hs
  | subscribe =>
    obtain ⟨_,hs⟩ := Option.ite_none_right_eq_some.mp hs
    cases hs
    refine ⟨h.awake,fun session hsession => ?_⟩
    cases hsession
    exact ⟨fun _ => rfl,by simp,by simp⟩
  | tryRecv =>
    obtain ⟨session,hsession,hs⟩ := Option.bind_eq_some_iff.mp hs
    cases (Option.ite_none_right_eq_some.mp hs).2
    exact h.tryRecv hsession hguard
  | event e =>
    obtain ⟨session,hsession,hs⟩ := Option.bind_eq_some_iff.mp hs
    cases (Option.ite_none_right_eq_some.mp hs).2
    exact h.handleEvent hsession hguard
  | iterate =>
    obtain ⟨session,hsession,hs⟩ := Option.bind_eq_some_iff.mp hs
    cases (Option.ite_none_right_eq_some.mp hs).2
    exact h.setSession hsession rfl rfl rfl
  | quit =>
    obtain ⟨session,_,rfl⟩ := Option.map_eq_some_iff.mp hs
    exact ⟨h.awake,by simp [State.endSession]⟩
  | storeFalse =>
    cases hs
    exact h.setFlags s.keyframeFlag false

theorem sound (h : GuardedRun step {} Requested as s) : Sound s := by
  refine h.invariant (P := fun _ s => Sound s) ⟨fun _ => .inl rfl,fun _ hs => by cases hs⟩ ?_
  intro as s a s' hrun ih hguard hs
  exact ih.step hrun.run hguard hs

/-- The capture thread puts a frame into the queue. -/
def captured (intra : Bool) : List Action := [.checkCapacity,.takeFlag,.encode (some intra),.trySend]

/-- The bridge and the session pass a frame on. -/
def passed : List Action := [.recv,.send,.iterate,.tryRecv,.checkPeer]

end Pipeline
end AnyKvm
