import AnyKvm.VideoPipeline

/-! The frames on their way through the pipeline.
They stay in the order of the encoder, and every frame is on its way, has been dropped or belongs to an
earlier session. -/

namespace AnyKvm
namespace Pipeline

open Transition

/-- The frames of the session: passed to `send_video`, and kept for its receiver. -/
def State.streamed (s : State) : List Frame :=
  match s.session with
  | some session => session.sent.reverse ++ session.rx.unread.items
  | none => []

/-- The frames on their way, from those passed to `send_video` to the newest. -/
def State.live (s : State) : List Frame :=
  s.streamed ++ (s.bridge.held ++ (s.queue.items ++ s.capture.held))

inductive Flow (s s' : State) : Prop
  | keep (hlive : s'.live = s.live) (hnext : s'.next = s.next) (hgone : s'.gone = s.gone)
  | encode (frame : Frame) (hlive : s'.live = s.live ++ [frame]) (hnumber : frame.number = s.next)
      (hnext : s'.next = s.next + 1) (hgone : s'.gone = s.gone)
  | lose (before lost after : List Frame) (hbefore : s.live = before ++ (lost ++ after))
      (hlive : s'.live = before ++ after) (hnext : s'.next = s.next)
      (hgone : s'.gone = lost.map Frame.number ++ s.gone)

variable {as : List Action} {s s' : State} {a : Action}

theorem pushed (rx : Receiver) (frame : Frame) :
    rx.unread.items ++ [frame] = rx.evicted ++ (rx.push frame).unread.items := by
  unfold Receiver.push Receiver.evicted
  cases hpush : rx.unread.push? frame with
  | some unread =>
    obtain ⟨hlt,hitems⟩ := BoundedQueue.push?_eq_some.mp hpush
    have hfull : rx.unread.isFull = false := by simpa [BoundedQueue.isFull] using hlt
    simp [hfull,hitems]
  | none =>
    have hfull : rx.unread.isFull = true := by
      simpa [BoundedQueue.isFull,BoundedQueue.push?] using hpush
    have hlength := BoundedQueue.isFull_iff.mp hfull
    have htail : rx.unread.tail.items.length < 32 := by
      rw [BoundedQueue.items_tail,List.length_tail]
      omega
    obtain ⟨unread,hpush'⟩ : ∃ unread, rx.unread.tail.push? frame = some unread :=
      ⟨_,by rw [BoundedQueue.push?,dif_pos htail]⟩
    have hitems := BoundedQueue.items_of_push? hpush'
    rw [hfull,if_pos rfl,hpush',Option.getD_some,hitems,BoundedQueue.items_tail,← List.append_assoc,
      ← List.drop_one,List.take_append_drop]

theorem Flow.same (hsession : s'.session = s.session)
    (hheld : s'.bridge.held ++ (s'.queue.items ++ s'.capture.held) =
      s.bridge.held ++ (s.queue.items ++ s.capture.held))
    (hnext : s'.next = s.next) (hgone : s'.gone = s.gone) : Flow s s' := by
  refine .keep ?_ hnext hgone
  simp only [State.live,State.streamed,hsession,hheld]

theorem flow_encode (hpoint : s.capture = .encoding) (output : Option Bool) : Flow s (s.encode output) := by
  cases output with
  | none => exact .same rfl (by rw [hpoint]; rfl) rfl rfl
  | some intra =>
    refine .encode ⟨s.next,intra⟩ ?_ rfl rfl rfl
    simp [State.live,State.streamed,State.encode,hpoint,CapturePoint.held]

theorem flow_trySend {frame : Frame} (hpoint : s.capture = .sending frame) :
    Flow s (s.trySend frame) := by
  unfold State.trySend
  cases hpush : s.queue.push? frame with
  | some queue =>
    refine .keep ?_ rfl rfl
    simp only [State.live,BoundedQueue.items_of_push? hpush,hpoint,CapturePoint.held,List.append_nil]
    rfl
  | none =>
    refine .lose (s.streamed ++ (s.bridge.held ++ s.queue.items)) [frame] [] ?_ ?_ rfl rfl
    · simp [State.live,hpoint,CapturePoint.held]
    · simp [State.live,State.streamed,CapturePoint.held]

theorem flow_drain (hpoint : s.bridge.held = []) : Flow s s.drain := by
  unfold State.drain
  cases hpop : s.queue.pop? with
  | some r =>
    obtain ⟨frame,queue⟩ := r
    have hitems := BoundedQueue.pop?_eq_some.mp hpop
    refine .lose s.streamed [frame] (queue.items ++ s.capture.held) ?_ ?_ rfl rfl
    · simp [State.live,hpoint,hitems]
    · simp [State.live,State.streamed,hpoint]
  | none =>
    refine .keep ?_ rfl rfl
    simp only [State.live,hpoint]
    rfl

theorem flow_send {frame : Frame} (hpoint : s.bridge = .sending frame) : Flow s (s.send frame) := by
  unfold State.send
  cases hsession : s.session with
  | some session =>
    refine .lose session.sent.reverse session.rx.evicted
      ((session.rx.push frame).unread.items ++ (s.queue.items ++ s.capture.held)) ?_ ?_ rfl rfl
    · have hpush := pushed session.rx frame
      simp only [State.live,State.streamed,hsession,hpoint,BridgePoint.held]
      rw [← List.append_assoc session.rx.evicted,← hpush]
      simp
    · simp [State.live,State.streamed,BridgePoint.held]
  | none =>
    refine .lose [] [frame] (s.queue.items ++ s.capture.held) ?_ ?_ rfl rfl
    · simp [State.live,State.streamed,hsession,hpoint,BridgePoint.held]
    · simp [State.live,State.streamed,BridgePoint.held]

theorem items_of_tryRecv {rx rx' : Receiver} {result : TryRecv} (h : rx.tryRecv = (result,rx')) :
    rx.unread.items = (match result with
      | .ok frame => [frame]
      | _ => []) ++ rx'.unread.items := by
  unfold Receiver.tryRecv at h
  split at h
  · cases h
    rfl
  · split at h
    · rename_i frame unread hpop
      cases h
      exact BoundedQueue.pop?_eq_some.mp hpop
    · cases h
      rfl

theorem flow_tryRecv {session : Session} (hsession : s.session = some session) :
    Flow s (s.tryRecv session) := by
  unfold State.tryRecv
  cases hrecv : session.rx.tryRecv with
  | mk result rx =>
    have hitems := items_of_tryRecv hrecv
    cases hice : session.iceConnected with
    | true =>
      refine .keep ?_ rfl rfl
      cases result <;> simp [State.live,State.streamed,hsession,hitems]
    | false =>
      cases result with
      | ok frame =>
        refine .lose session.sent.reverse [frame]
          (rx.unread.items ++ (s.bridge.held ++ (s.queue.items ++ s.capture.held))) ?_ ?_ rfl rfl
        · simp [State.live,State.streamed,hsession,hitems]
        · simp [State.live,State.streamed]
      | lagged =>
        refine .keep ?_ rfl rfl
        simp [State.live,State.streamed,hsession,hitems]
      | empty =>
        refine .keep ?_ rfl rfl
        simp [State.live,State.streamed,hsession,hitems]

theorem flow_endSession {session : Session} (hsession : s.session = some session) :
    Flow s (s.endSession session) := by
  refine .lose [] (session.sent.reverse ++ session.rx.unread.items)
    (s.bridge.held ++ (s.queue.items ++ s.capture.held)) ?_ ?_ rfl rfl
  · simp [State.live,State.streamed,hsession]
  · simp [State.live,State.streamed,State.endSession]

theorem flow_checkPeer (hpoint : s.bridge = .top) : Flow s s.checkPeer := by
  unfold State.checkPeer
  split
  · exact .same rfl (by rw [hpoint]; rfl) rfl rfl
  · split
    · exact .same rfl (by rw [hpoint]; rfl) rfl rfl
    · exact .same rfl (by rw [hpoint]; rfl) rfl rfl

theorem flow_recv (hpoint : s.bridge = .receiving) {frame : Frame} {queue : BoundedQueue Frame 32}
    (hpop : s.queue.pop? = some (frame,queue)) : Flow s { s with bridge := .sending frame, queue := queue } := by
  refine .same rfl ?_ rfl rfl
  simp [hpoint,BridgePoint.held,BoundedQueue.pop?_eq_some.mp hpop]

theorem flow_subscribe (hnone : s.session = none) : Flow s { s with session := some {} } := by
  refine .keep ?_ rfl rfl
  simp [State.live,State.streamed,hnone]

theorem flow_session {session session' : Session} (hsession : s.session = some session)
    (hsent : session'.sent = session.sent) (hrx : session'.rx = session.rx) :
    Flow s { s with session := some session' } := by
  refine .keep ?_ rfl rfl
  simp [State.live,State.streamed,hsession,hsent,hrx]

theorem flow_handleEvent {session : Session} (hsession : s.session = some session) (e : Agent.Event) :
    Flow s (s.handleEvent session e) := by
  have hrefl : Flow s s := .same rfl rfl rfl rfl
  have hflag : Flow s { s with keyframeFlag := true } := .same rfl rfl rfl rfl
  cases e with
  | connected =>
    refine .keep ?_ rfl rfl
    simp [State.live,State.streamed,State.handleEvent,hsession]
  | channelData data => exact hrefl
  | keyframeRequest => exact hflag
  | other => exact hrefl
  | iceConnectionStateChange state =>
    cases state with
    | new => exact hrefl
    | checking => exact hrefl
    | connected => exact hflag
    | completed => exact hflag
    | disconnected =>
      cases hice : session.iceConnected with
      | true =>
        rw [State.handleEvent,if_pos hice]
        cases flow_endSession hsession with
        | keep hlive hnext hgone => exact .keep hlive hnext hgone
        | encode frame hlive hnumber hnext hgone => exact .encode frame hlive hnumber hnext hgone
        | lose before lost after hbefore hlive hnext hgone => exact .lose before lost after hbefore hlive hnext hgone
      | false =>
        rw [State.handleEvent,if_neg (by simp [hice])]
        exact hrefl

theorem flow (hs : step s a = some s') : Flow s s' := by
  cases a with
  | newEncoder =>
    obtain ⟨hheld,hs⟩ := Option.ite_none_right_eq_some.mp hs
    cases hs
    exact .same rfl (by rw [hheld]; rfl) rfl rfl
  | checkCapacity =>
    obtain ⟨⟨hpoint,_⟩,hs⟩ := Option.ite_none_right_eq_some.mp hs
    cases hs
    exact .same rfl (by rw [hpoint]; rfl) rfl rfl
  | takeFlag | decodeFailed | wake =>
    obtain ⟨hpoint,hs⟩ := Option.ite_none_right_eq_some.mp hs
    cases hs
    exact .same rfl (by rw [hpoint]; rfl) rfl rfl
  | encode output =>
    obtain ⟨⟨hpoint,_⟩,hs⟩ := Option.ite_none_right_eq_some.mp hs
    cases hs
    exact flow_encode hpoint output
  | trySend =>
    simp only [step] at hs
    split at hs
    · rename_i frame hpoint
      cases hs
      exact flow_trySend hpoint
    · cases hs
  | checkPeer =>
    obtain ⟨hpoint,hs⟩ := Option.ite_none_right_eq_some.mp hs
    cases hs
    exact flow_checkPeer hpoint
  | drain =>
    obtain ⟨hpoint,hs⟩ := Option.ite_none_right_eq_some.mp hs
    cases hs
    exact flow_drain (by rw [hpoint]; rfl)
  | recv =>
    obtain ⟨hpoint,hs⟩ := Option.ite_none_right_eq_some.mp hs
    obtain ⟨_,hpop,rfl⟩ := Option.map_eq_some_iff.mp hs
    exact flow_recv hpoint hpop
  | send =>
    simp only [step] at hs
    split at hs
    · rename_i frame hpoint
      cases hs
      exact flow_send hpoint
    · cases hs
  | subscribe =>
    obtain ⟨hnone,hs⟩ := Option.ite_none_right_eq_some.mp hs
    cases hs
    exact flow_subscribe (Option.isNone_iff_eq_none.mp hnone)
  | tryRecv =>
    obtain ⟨session,hsession,hs⟩ := Option.bind_eq_some_iff.mp hs
    cases (Option.ite_none_right_eq_some.mp hs).2
    exact flow_tryRecv hsession
  | event e =>
    obtain ⟨session,hsession,hs⟩ := Option.bind_eq_some_iff.mp hs
    cases (Option.ite_none_right_eq_some.mp hs).2
    exact flow_handleEvent hsession e
  | iterate =>
    obtain ⟨session,hsession,hs⟩ := Option.bind_eq_some_iff.mp hs
    cases (Option.ite_none_right_eq_some.mp hs).2
    exact flow_session hsession rfl rfl
  | quit =>
    obtain ⟨session,hsession,rfl⟩ := Option.map_eq_some_iff.mp hs
    exact flow_endSession hsession
  | storeFalse =>
    cases hs
    exact .same rfl rfl rfl rfl

/-- The frames on their way are in order, and all others have gone. -/
structure Account (s : State) : Prop where
  sorted : s.live.Pairwise fun f f' => f.number < f'.number
  below : ∀ f ∈ s.live, f.number < s.next
  kept : ∀ n < s.next, n ∈ s.gone ∨ ∃ f ∈ s.live, f.number = n
  apart : ∀ f ∈ s.live, f.number ∉ s.gone
  past : ∀ n ∈ s.gone, n < s.next

theorem Account.keep (h : Account s) (hlive : s'.live = s.live) (hnext : s'.next = s.next)
    (hgone : s'.gone = s.gone) : Account s' := by
  obtain ⟨hsorted,hbelow,hkept,hapart,hpast⟩ := h
  rw [← hlive] at hsorted hbelow hkept hapart
  rw [← hnext] at hbelow hkept hpast
  rw [← hgone] at hkept hapart hpast
  exact ⟨hsorted,hbelow,hkept,hapart,hpast⟩

theorem Account.encode (h : Account s) {frame : Frame} (hlive : s'.live = s.live ++ [frame])
    (hnumber : frame.number = s.next) (hnext : s'.next = s.next + 1) (hgone : s'.gone = s.gone) : Account s' := by
  obtain ⟨hsorted,hbelow,hkept,hapart,hpast⟩ := h
  have hmem : ∀ f ∈ s'.live, f ∈ s.live ∨ f = frame := by
    intro f hf
    rw [hlive,List.mem_append,List.mem_singleton] at hf
    exact hf
  refine ⟨?_,?_,?_,?_,?_⟩
  · rw [hlive,List.pairwise_append]
    refine ⟨hsorted,List.pairwise_singleton _ _,?_⟩
    intro f hf f' hf'
    rw [List.mem_singleton.mp hf',hnumber]
    exact hbelow f hf
  · rw [hnext]
    intro f hf
    rcases hmem f hf with hf | rfl
    · exact (hbelow f hf).trans (Nat.lt_succ_self _)
    · rw [hnumber]
      exact Nat.lt_succ_self _
  · rw [hnext,hgone,hlive]
    intro n hn
    rcases Nat.lt_succ_iff_lt_or_eq.mp hn with hn | rfl
    · refine (hkept n hn).imp_right ?_
      rintro ⟨f,hf,rfl⟩
      exact ⟨f,List.mem_append_left _ hf,rfl⟩
    · exact .inr ⟨frame,by simp,hnumber⟩
  · rw [hgone]
    intro f hf
    rcases hmem f hf with hf | rfl
    · exact hapart f hf
    · rw [hnumber]
      exact fun hmem => Nat.lt_irrefl _ (hpast _ hmem)
  · rw [hgone,hnext]
    exact fun n hn => (hpast n hn).trans (Nat.lt_succ_self _)

/-- Frames of a sorted list differ from those that are taken out of it. -/
theorem ne_of_taken {before lost after : List Frame}
    (hsorted : (before ++ (lost ++ after)).Pairwise fun f f' => f.number < f'.number) {f f' : Frame}
    (hf : f ∈ before ++ after) (hf' : f' ∈ lost) : f.number ≠ f'.number := by
  rw [List.pairwise_append,List.pairwise_append] at hsorted
  obtain ⟨_,⟨_,_,hafter⟩,hbefore⟩ := hsorted
  rcases List.mem_append.mp hf with hf | hf
  · exact (hbefore f hf f' (List.mem_append_left _ hf')).ne
  · exact (hafter f' hf' f hf).ne'

theorem Account.lose (h : Account s) {before lost after : List Frame} (hbefore : s.live = before ++ (lost ++ after))
    (hlive : s'.live = before ++ after) (hnext : s'.next = s.next) (hgone : s'.gone = lost.map Frame.number ++ s.gone) :
    Account s' := by
  obtain ⟨hsorted,hbelow,hkept,hapart,hpast⟩ := h
  have hsub : ∀ f ∈ s'.live, f ∈ s.live := by
    intro f hf
    rw [hlive] at hf
    rw [hbefore]
    simp only [List.mem_append] at hf ⊢
    tauto
  have hlost : ∀ f ∈ lost, f ∈ s.live := by
    intro f hf
    rw [hbefore]
    simp [hf]
  refine ⟨?_,?_,?_,?_,?_⟩
  · rw [hlive]
    rw [hbefore] at hsorted
    exact hsorted.sublist (List.Sublist.append_left (List.sublist_append_right _ _) _)
  · rw [hnext]
    exact fun f hf => hbelow f (hsub f hf)
  · rw [hnext,hgone]
    intro n hn
    rcases hkept n hn with hmem | ⟨f,hf,rfl⟩
    · exact .inl (List.mem_append_right _ hmem)
    · rw [hbefore] at hf
      rw [hlive]
      simp only [List.mem_append,List.mem_map] at hf ⊢
      rcases hf with hf | hf | hf
      · exact .inr ⟨f,.inl hf,rfl⟩
      · exact .inl (.inl ⟨f,hf,rfl⟩)
      · exact .inr ⟨f,.inr hf,rfl⟩
  · rw [hgone]
    intro f hf hmem
    rcases List.mem_append.mp hmem with hmem | hmem
    · obtain ⟨f',hf',heq⟩ := List.mem_map.mp hmem
      rw [hbefore] at hsorted
      exact ne_of_taken hsorted (hlive ▸ hf) hf' heq.symm
    · exact hapart f (hsub f hf) hmem
  · rw [hgone,hnext]
    intro n hn
    rcases List.mem_append.mp hn with hn | hn
    · obtain ⟨f',hf',rfl⟩ := List.mem_map.mp hn
      exact hbelow f' (hlost f' hf')
    · exact hpast n hn

theorem Account.flow (h : Account s) (hf : Flow s s') : Account s' := by
  cases hf with
  | keep hlive hnext hgone => exact h.keep hlive hnext hgone
  | encode frame hlive hnumber hnext hgone => exact h.encode hlive hnumber hnext hgone
  | lose before lost after hbefore hlive hnext hgone => exact h.lose hbefore hlive hnext hgone

theorem account (h : PipelineRun as s) : Account s := by
  refine h.invariant (P := fun _ s => Account s) ?_ ?_
  · exact ⟨List.Pairwise.nil,by rintro f ⟨⟩,by rintro n ⟨⟩,by rintro f ⟨⟩,by rintro n ⟨⟩⟩
  · intro as s a s' _ ih hs
    exact ih.flow (flow hs)

/-- In a rising list below `n`, newest first, only the newest frame can be the predecessor of `n`. -/
theorem head_of_pred {older : List Frame} (hsorted : older.reverse.Pairwise fun f f' => f.number < f'.number) {n : ℕ}
    (hbelow : ∀ f ∈ older, f.number < n) {f : Frame} (hf : f ∈ older) (hnumber : f.number + 1 = n) :
    ∃ before ∈ older.head?, before.number + 1 = n := by
  cases older with
  | nil => cases hf
  | cons last older =>
    refine ⟨last,rfl,?_⟩
    rcases List.mem_cons.mp hf with rfl | hf
    · exact hnumber
    · have hlast := hbelow last List.mem_cons_self
      rw [List.reverse_cons,List.pairwise_append] at hsorted
      have hlt := hsorted.2.2 f (List.mem_reverse.mpr hf) last (by simp)
      omega

/-- Behind the frames `older`, newest first, a frame whose predecessor has not gone follows the newest. -/
theorem Account.follows (h : Account s) {older rest : List Frame} {frame : Frame}
    (hlive : s.live = older.reverse ++ frame :: rest) (hne : frame.number ≠ 0) (hgone : frame.number - 1 ∉ s.gone) :
    ∃ before ∈ older.head?, before.number + 1 = frame.number := by
  have hsorted := h.sorted
  rw [hlive,List.pairwise_append] at hsorted
  obtain ⟨holder,hrest,hcross⟩ := hsorted
  have hframe : frame.number < s.next := h.below frame (by simp [hlive])
  obtain ⟨f,hf,hnumber⟩ := (h.kept (frame.number - 1) (by omega)).resolve_left hgone
  have hfolder : f ∈ older := by
    rw [hlive] at hf
    rcases List.mem_append.mp hf with hf | hf
    · exact List.mem_reverse.mp hf
    · rcases List.mem_cons.mp hf with rfl | hf
      · omega
      · have hlt := (List.pairwise_cons.mp hrest).1 f hf
        omega
  exact head_of_pred holder (fun f hf => hcross f (List.mem_reverse.mpr hf) frame List.mem_cons_self) hfolder (by omega)

theorem Account.follows_next (h : Account s) {older : List Frame} (hlive : s.live = older.reverse) (hne : s.next ≠ 0)
    (hgone : s.next - 1 ∉ s.gone) : ∃ before ∈ older.head?, before.number + 1 = s.next := by
  obtain ⟨f,hf,hnumber⟩ := (h.kept (s.next - 1) (by omega)).resolve_left hgone
  have hmem : ∀ f ∈ older, f ∈ s.live := fun f hf => by rwa [hlive,List.mem_reverse]
  rw [hlive,List.mem_reverse] at hf
  exact head_of_pred (hlive ▸ h.sorted) (fun f hf => h.below f (hmem f hf)) hf (by omega)

end Pipeline
end AnyKvm
