import AnyKvm.Retransmission

/-! What the pacer is told of a stream, and what polling the stream then gives. -/
namespace AnyKvm.Streams
open Transition

def polls (times : List ℕ) : List Action := times.map fun t => .poll t false

def SendQueue.timed (q : SendQueue) : List RtpPacket := q.queue.filter (·.timestamp.isSome)

theorem SendQueue.Accounts.timed {q : SendQueue} {clock waited : ℕ} {sending fresh : List RtpPacket}
    (h : q.Accounts clock waited sending fresh) : q.timed = sending := by
  obtain ⟨seen,-,hcounts⟩ := h.counts
  rw [SendQueue.timed,h.queue,List.filter_append,List.filter_eq_self.mpr,List.filter_eq_nil_iff.mpr,
    List.append_nil]
  · intro r hr
    rw [h.fresh r hr]
    exact Bool.false_ne_true
  · intro r hr
    obtain ⟨t,-,ht⟩ := hcounts.past r hr
    rw [ht]
    rfl

section Snapshot

theorem foldl_addResend (now : ℕ) (resends : List Resend) (s : QueueSnapshot) :
    (resends.foldl (QueueSnapshot.addResend now) s).packetCount = s.packetCount+resends.length ∧
      (resends.foldl (QueueSnapshot.addResend now) s).size =
        s.size+(resends.map (·.payloadSize)).sum ∧
      (resends.foldl (QueueSnapshot.addResend now) s).totalQueueTimeOrigin =
        s.totalQueueTimeOrigin+(resends.map fun r => now-r.queuedAt).sum := by
  induction resends generalizing s with
  | nil => exact ⟨rfl,rfl,rfl⟩
  | cons r rs ih =>
    obtain ⟨hcount,hsize,htime⟩ := ih (s.addResend now r)
    rw [List.foldl_cons,hcount,hsize,htime]
    simp only [QueueSnapshot.addResend,List.length_cons,List.map_cons,List.sum_cons]
    omega

/-- What is outstanding, as it is told to the pacer. -/
structure Tells (s : State) (now : ℕ) (snapshot : QueueSnapshot) : Prop where
  packetCount : snapshot.packetCount = s.stream.sendQueue.timed.length+s.stream.resends.length
  size : snapshot.size = sizes s.stream.sendQueue.timed+(s.stream.resends.map (·.payloadSize)).sum
  totalQueueTimeOrigin : snapshot.totalQueueTimeOrigin = s.waited+waits now s.stream.sendQueue.timed+
    (s.stream.resends.map fun r => now-r.queuedAt).sum
  priority : snapshot.priority = if snapshot.packetCount = 0 then .empty else .media

theorem priority_with_media (c : Prop) [Decidable c] :
    (if (if c then QueuePriority.empty else .media).rank ≤ QueuePriority.media.rank then
      if c then QueuePriority.empty else .media else .media) = .media := by
  by_cases hc : c
  · simp only [hc,if_true]
    rfl
  · simp only [hc,if_false]
    rfl

theorem Tells.of_queueState {s : State} {now : ℕ} {sending fresh : List RtpPacket}
    (haccounts : s.stream.sendQueue.Accounts s.clock s.waited sending fresh) (hle : s.clock ≤ now) :
    ∃ snapshot q, s.stream.queueState now = .ok (snapshot,{ s.stream with sendQueue := q }) ∧
      Tells s now snapshot ∧ q.Accounts now s.waited sending fresh := by
  obtain ⟨q,hq,haccounts',-⟩ := haccounts.snapshot hle
  refine ⟨_,q,by simp only [StreamTx.queueState,hq,Outcome.ok_bind]; rfl,?_,haccounts'⟩
  have hpriority : (if sending = [] then QueuePriority.empty else .media) =
      if sending.length = 0 then .empty else .media := by
    simp only [List.length_eq_zero_iff]
  by_cases hnil : s.stream.resends = []
  · rw [StreamTx.queueStateResend,if_pos hnil]
    refine ⟨?_,?_,?_,?_⟩ <;> simp only [hnil,haccounts.timed,Option.map_none,Option.getD_none,
      List.length_nil,Nat.add_zero,List.map_nil,List.sum_nil,hpriority]
  · obtain ⟨hcount,hsize,htime⟩ := foldl_addResend now s.stream.resends ⟨now,0,0,0,none,none,.empty⟩
    have hpos := List.length_pos_iff.mpr hnil
    dsimp only at hcount hsize htime
    rw [StreamTx.queueStateResend,if_neg hnil]
    refine ⟨?_,?_,?_,?_⟩
    · simp only [Option.map_some,Option.getD_some,QueueSnapshot.merge,QueueSnapshot.updatePriority,hcount,
        haccounts.timed]
      omega
    · simp only [Option.map_some,Option.getD_some,QueueSnapshot.merge,QueueSnapshot.updatePriority,hsize,
        haccounts.timed]
      omega
    · simp only [Option.map_some,Option.getD_some,QueueSnapshot.merge,QueueSnapshot.updatePriority,htime,
        haccounts.timed]
      omega
    · simp only [Option.map_some,Option.getD_some,QueueSnapshot.merge,QueueSnapshot.updatePriority,hcount,
        Nat.zero_add,hpos,if_true,priority_with_media]
      rw [if_neg (by omega)]

end Snapshot

section Drain

variable {params : List PayloadParams} {exts : ExtensionMap} {init : StreamTx} {s : State}

theorem replay_poll {s' : State} {t : ℕ} {times : List ℕ} (hle : s.clock ≤ t)
    (h : perform params exts s (.poll t false) = .ok s') :
    replay (step params exts) s (polls (t :: times)) = replay (step params exts) s' (polls times) := by
  have hstep : step params exts s (.poll t false) = some s' := step_eq_some.mpr ⟨hle,h⟩
  rw [polls,List.map_cons,replay,hstep]
  rfl

theorem Inv.drain_resends (hd : Negotiated params) (hrtx : RtxDeclared params init)
    (h : Inv params init s) (times : List ℕ) (hlen : times.length = s.stream.resends.length)
    (hsorted : (s.clock :: times).Pairwise (· ≤ ·)) :
    ∃ s' outs, replay (step params exts) s (polls times) = some s' ∧ Inv params init s' ∧
      s'.stream.resends = [] ∧ s'.stream.sendQueue = s.stream.sendQueue ∧ s'.waited = s.waited ∧
      s'.clock = times.getLast?.getD s.clock ∧ s'.sent = s.sent ++ outs ∧
      List.Forall₂ (fun r out => out.1.kind = .resend r.seqNo ∧ ∃ pkt,
        s.stream.rtxCache.getCachedPacketBySeqNo r.seqNo = some pkt ∧
          receive params init.ssrc out.1 = pkt.media) s.stream.resends outs := by
  induction times generalizing s with
  | nil =>
    have hnil : s.stream.resends = [] := List.eq_nil_of_length_eq_zero hlen.symm
    exact ⟨s,[],rfl,h,hnil,rfl,rfl,rfl,(List.append_nil _).symm,hnil ▸ .nil⟩
  | cons t times ih =>
    obtain ⟨r,resends,hcons⟩ : ∃ r resends, s.stream.resends = r :: resends :=
      List.exists_cons_of_length_eq_add_one hlen.symm
    obtain ⟨hfirst,hrest⟩ := List.pairwise_cons.mp hsorted
    have hle := hfirst t (.head _)
    obtain ⟨p,pkt,s₁,hs₁,hinv₁,heq,hget,hkind,hreceive⟩ := h.poll_again hd hrtx hle hcons
    obtain ⟨s',outs,hreplay,hinv',hnil,hqueue,hwaited,hclock,hsent,hall⟩ := ih hinv₁
      (by rw [heq]; rw [hcons] at hlen; exact Nat.succ.inj hlen) (by rw [heq]; exact hrest)
    refine ⟨s',(p,t) :: outs,(replay_poll hle hs₁).trans hreplay,hinv',hnil,?_,?_,?_,?_,?_⟩
    · rw [hqueue,heq]
    · rw [hwaited,heq]
    · rw [hclock,heq,List.getLast?_cons,Option.getD_some]
    · rw [hsent,heq,List.append_assoc,List.singleton_append]
    · rw [hcons]
      refine .cons ⟨hkind,pkt,hget,hreceive⟩ ?_
      rw [heq] at hall
      exact hall

/-- As many polls as packets have their time send these, in their order, and leave no other. -/
theorem Inv.drain_queue (hd : Negotiated params) (h : Inv params init s) (hnil : s.stream.resends = [])
    {sending fresh : List RtpPacket}
    (haccounts : s.stream.sendQueue.Accounts s.clock s.waited sending fresh) (times : List ℕ)
    (hlen : times.length = sending.length) (hsorted : (s.clock :: times).Pairwise (· ≤ ·)) :
    ∃ s' outs, replay (step params exts) s (polls times) = some s' ∧ Inv params init s' ∧
      s'.stream.resends = [] ∧ s'.stream.sendQueue.Accounts s'.clock s'.waited [] fresh ∧
      s'.sent = s.sent ++ outs ∧
      List.Forall₂ (fun p out => out.1.kind = .regular ∧ receive params init.ssrc out.1 = p.media)
        sending outs := by
  induction sending generalizing s times with
  | nil =>
    have hnone : times = [] := List.eq_nil_of_length_eq_zero hlen
    subst hnone
    exact ⟨s,[],rfl,h,hnil,haccounts,(List.append_nil _).symm,.nil⟩
  | cons p sending ih =>
    obtain ⟨t,times,rfl⟩ := List.exists_cons_of_length_eq_add_one hlen
    obtain ⟨hfirst,hrest⟩ := List.pairwise_cons.mp hsorted
    have hle := hfirst t (.head _)
    obtain ⟨out,q,cache,param,s₁,hs₁,hinv₁,heq,haccounts₁,-,-,hkind,hreceive⟩ :=
      h.poll_head hd hle false (.inr hnil) haccounts
    obtain ⟨s',outs,hreplay,hinv',hnil',haccounts',hsent,hall⟩ := ih hinv₁ (by rw [heq])
      (by rw [heq]; exact haccounts₁) times (Nat.succ.inj hlen) (by rw [heq]; exact hrest)
    refine ⟨s',(out,t) :: outs,(replay_poll hle hs₁).trans hreplay,hinv',hnil',haccounts',?_,
      .cons ⟨hkind,hreceive⟩ hall⟩
    rw [hsent,heq,List.append_assoc,List.singleton_append]

/-- How many bytes of payload the other end reads from these packets. -/
def receivedBytes (params : List PayloadParams) (ssrc : ℕ) (outs : List (SentPacket × ℕ)) : ℕ :=
  ((outs.filterMap fun o => receive params ssrc o.1).map (·.2.length)).sum

theorem receivedBytes_append (params : List PayloadParams) (ssrc : ℕ)
    (outs outs' : List (SentPacket × ℕ)) :
    receivedBytes params ssrc (outs ++ outs') =
      receivedBytes params ssrc outs+receivedBytes params ssrc outs' := by
  simp only [receivedBytes,List.filterMap_append,List.map_append,List.sum_append]

theorem receivedBytes_eq {α : Type} {ssrc : ℕ} {size : α → ℕ} {l : List α}
    {outs : List (SentPacket × ℕ)}
    (h : List.Forall₂ (fun x (out : SentPacket × ℕ) => ∃ p : RtpPacket,
      receive params ssrc out.1 = p.media ∧ size x = p.payload.length) l outs) :
    receivedBytes params ssrc outs = (l.map size).sum := by
  induction h with
  | nil => rfl
  | cons hout _ ih =>
    obtain ⟨p,hreceive,hsize⟩ := hout
    rw [receivedBytes] at ih
    simp only [receivedBytes,List.filterMap_cons,hreceive,RtpPacket.media,List.map_cons,List.sum_cons,ih,
      hsize]

theorem map_eq_of_forall₂ {α β γ : Type} {f : α → γ} {g : β → γ} {l : List α} {u : List β}
    (h : List.Forall₂ (fun x y => g y = f x) l u) : u.map g = l.map f := by
  induction h with
  | nil => rfl
  | cons hxy _ ih => rw [List.map_cons,List.map_cons,hxy,ih]

theorem pairwise_le_from_last {c : ℕ} {xs ys : List ℕ} (h : (c :: (xs ++ ys)).Pairwise (· ≤ ·)) :
    (xs.getLast?.getD c :: ys).Pairwise (· ≤ ·) := by
  rcases xs.eq_nil_or_concat with rfl | ⟨xs',x,rfl⟩
  · exact h
  · rw [List.concat_eq_append] at h ⊢
    rw [List.getLast?_append,List.getLast?_singleton,Option.some_or,Option.getD_some]
    have htail := (List.pairwise_cons.mp h).2
    rw [List.append_assoc,List.singleton_append] at htail
    exact (List.pairwise_append.mp htail).2.1

/-- The resends go first, and then the queue. -/
theorem Inv.drain (hd : Negotiated params) (hrtx : RtxDeclared params init) (h : Inv params init s)
    {sending fresh : List RtpPacket} (haccounts : s.stream.sendQueue.Accounts s.clock s.waited sending fresh)
    (times : List ℕ) (hlen : times.length = s.stream.resends.length + sending.length)
    (hsorted : (s.clock :: times).Pairwise (· ≤ ·)) :
    ∃ s' resent sent, replay (step params exts) s (polls times) = some s' ∧ Inv params init s' ∧
      s'.stream.resends = [] ∧ s'.stream.sendQueue.Accounts s'.clock s'.waited [] fresh ∧
      s'.sent = s.sent ++ (resent ++ sent) ∧
      List.Forall₂ (fun r out => out.1.kind = .resend r.seqNo ∧ ∃ pkt,
        s.stream.rtxCache.getCachedPacketBySeqNo r.seqNo = some pkt ∧
          receive params init.ssrc out.1 = pkt.media) s.stream.resends resent ∧
      List.Forall₂ (fun p out => out.1.kind = .regular ∧ receive params init.ssrc out.1 = p.media)
        sending sent := by
  have hsplit := List.take_append_drop s.stream.resends.length times
  obtain ⟨s₁,resent,hreplay₁,hinv₁,hnil₁,hqueue₁,hwaited₁,hclock₁,hsent₁,hall₁⟩ :=
    h.drain_resends hd hrtx (times.take s.stream.resends.length)
      (by rw [List.length_take]; exact min_eq_left (by omega))
      (hsorted.sublist ((List.take_sublist _ _).cons_cons s.clock))
  have hlater : s.clock ≤ s₁.clock := by
    rw [hclock₁]
    rcases hlast : (times.take s.stream.resends.length).getLast? with - | t
    · exact le_rfl
    · exact (List.pairwise_cons.mp hsorted).1 t
        ((List.take_sublist _ _).subset (List.mem_of_getLast? hlast))
  have hq₁ : s₁.stream.sendQueue.Accounts s₁.clock s₁.waited sending fresh := by
    rw [hqueue₁,hwaited₁]
    exact haccounts.later hlater
  obtain ⟨s₂,sent,hreplay₂,hinv₂,hnil₂,hidle₂,hsent₂,hall₂⟩ :=
    hinv₁.drain_queue hd hnil₁ hq₁ (times.drop s.stream.resends.length)
      (by rw [List.length_drop]; omega)
      (by rw [hclock₁]; exact pairwise_le_from_last (hsplit.symm ▸ hsorted))
  refine ⟨s₂,resent,sent,?_,hinv₂,hnil₂,hidle₂,?_,hall₁,hall₂⟩
  · rw [← hsplit,polls,List.map_append,replay_append]
    exact (congrArg (Option.bind · _) hreplay₁).trans hreplay₂
  · rw [hsent₂,hsent₁,List.append_assoc]

/-- A resend carries the payload bytes that are counted for it. -/
theorem Inv.receivedBytes_resent (h : Inv params init s) {ssrc : ℕ} {resent : List (SentPacket × ℕ)}
    (hall : List.Forall₂ (fun r out => out.1.kind = .resend r.seqNo ∧ ∃ pkt,
      s.stream.rtxCache.getCachedPacketBySeqNo r.seqNo = some pkt ∧
        receive params ssrc out.1 = pkt.media) s.stream.resends resent) :
    receivedBytes params ssrc resent = (s.stream.resends.map (·.payloadSize)).sum := by
  refine receivedBytes_eq (List.forall₂_iff_get.mpr ⟨hall.length_eq,fun i hi hi' => ?_⟩)
  obtain ⟨-,pkt,hget,hreceive⟩ := hall.get hi hi'
  obtain ⟨pkt',hget',hsize⟩ := h.resends _ (List.get_mem _ ⟨i,hi⟩)
  cases hget.symm.trans hget'
  exact ⟨pkt,hreceive,hsize⟩

/-- At every point of a run the pacer is told what is there to send, but for a queue time that
counts what earlier packets have waited.  As many polls as it is told of packets send these, the
resends first and then the queue, each of them in its order; they carry as many bytes as it is
told of; and no packet is left to send. -/
theorem drained {as : List Action} {ssrc seqNo seqNoRtx clock now : ℕ} {rtx : Option ℕ}
    {mid : Mid} {rid : Option Rid} {isAudio : Bool}
    (hd : Negotiated params) (hrtx : RtxDeclared params (.new ssrc rtx mid rid isAudio seqNo seqNoRtx))
    (h : Run (step params exts) { stream := .new ssrc rtx mid rid isAudio seqNo seqNoRtx,clock } as s)
    (hle : s.clock ≤ now) :
    ∃ snapshot stream, s.stream.queueState now = .ok (snapshot,stream) ∧ Tells s now snapshot ∧
      ∀ times, times.length = snapshot.packetCount → (now :: times).Pairwise (· ≤ ·) →
        ∃ s' outs, replay (step params exts) s (.queueState now :: polls times) = some s' ∧
          s'.sent = s.sent ++ outs ∧
          outs.map (·.1.kind) = s.stream.resends.map (fun r => .resend r.seqNo) ++
            s.stream.sendQueue.timed.map (fun _ => .regular) ∧
          (outs.drop s.stream.resends.length).map (fun o => receive params ssrc o.1) =
            s.stream.sendQueue.timed.map (·.media) ∧
          receivedBytes params ssrc outs = snapshot.size ∧
          ∀ t, s'.clock ≤ t → s'.stream.pollPacket params exts t false = .ok (none,s'.stream) := by
  have hinv := inv_run hd hrtx h
  obtain ⟨sending,fresh,haccounts⟩ := hinv.queue
  obtain ⟨snapshot,q,hstate,htells,hq⟩ := Tells.of_queueState haccounts hle
  refine ⟨snapshot,_,hstate,htells,fun times hlen hsorted => ?_⟩
  have htimed := haccounts.timed
  set s₁ : State := { s with stream := { s.stream with sendQueue := q },clock := now } with hs₁
  have hperform : perform params exts s (.queueState now) = .ok s₁ := by
    simp only [perform,hstate,Outcome.ok_bind,hs₁]
  have hinv₁ : Inv params (.new ssrc rtx mid rid isAudio seqNo seqNoRtx) s₁ := by
    obtain ⟨t,ht,hinv'⟩ := hinv.queueState hle
    cases hperform.symm.trans ht
    exact hinv'
  rw [htells.packetCount,htimed] at hlen
  obtain ⟨s₂,resent,sent,hreplay,hinv₂,hnil,hidle,hsent,hresent,hregular⟩ :=
    hinv₁.drain hd hrtx hq times (hlen.trans (Nat.add_comm _ _)) hsorted
  have hdrop : (resent ++ sent).drop s.stream.resends.length = sent := by
    rw [show s.stream.resends.length = resent.length from hresent.length_eq,List.drop_left]
  refine ⟨s₂,resent ++ sent,?_,hsent,?_,?_,?_,?_⟩
  · have hstep : step params exts s (.queueState now) = some s₁ := step_eq_some.mpr ⟨hle,hperform⟩
    rw [replay,hstep,Option.bind_some,hreplay]
  · rw [List.map_append,htimed]
    exact congrArg₂ _ (map_eq_of_forall₂ (hresent.imp fun _ _ hout => hout.1))
      (map_eq_of_forall₂ (hregular.imp fun _ _ hout => hout.1))
  · rw [hdrop,htimed]
    exact map_eq_of_forall₂ (hregular.imp fun _ _ hout => hout.2)
  · have hbytes : receivedBytes params ssrc sent = (sending.map (·.payload.length)).sum :=
      receivedBytes_eq (hregular.imp fun p _ hout => ⟨p,hout.2,rfl⟩)
    have hagain : receivedBytes params ssrc resent = (s.stream.resends.map (·.payloadSize)).sum :=
      hinv₁.receivedBytes_resent hresent
    rw [receivedBytes_append,hagain,hbytes,htells.size,htimed,Nat.add_comm]
    rfl
  · intro t ht
    rw [(hinv₂.poll_idle ht false (.inr hnil) hidle).1,← hnil]

/-- One packet is to be sent again and one waits; a third has not got its time. -/
theorem drained_two : ∃ s snapshot stream, s.stream.queueState 5 = .ok (snapshot,stream) ∧
    Tells s 5 snapshot ∧ s.stream.resends.length = 1 ∧ s.stream.sendQueue.timed.length = 1 ∧
    ∀ times, times.length = snapshot.packetCount → (5 :: times).Pairwise (· ≤ ·) →
      ∃ s' outs, replay (step [⟨96,some 97⟩] .standard) s (.queueState 5 :: polls times) = some s' ∧
        s'.sent = s.sent ++ outs ∧ receivedBytes [⟨96,some 97⟩] 5 outs = snapshot.size ∧
        ∀ t, s'.clock ≤ t → s'.stream.pollPacket [⟨96,some 97⟩] .standard t false = .ok (none,s'.stream) := by
  obtain ⟨s,hrun,hs⟩ := exists_run_of_replay (step [⟨96,some 97⟩] .standard)
    { stream := .new 5 (some 6) ⟨[48],by decide,by decide⟩ none false 7 9 }
    [.write 96 90 true [1,2],.timeout 1,.poll 2 false,.write 96 91 true [3],.nack 3 [⟨7,0⟩],.timeout 4,
      .write 96 92 true [4]]
    (fun s => s.clock = 4 ∧ s.stream.resends.length = 1 ∧ s.stream.sendQueue.timed.length = 1)
    (by decide)
  obtain ⟨hclock,hresends,htimed⟩ := of_decide_eq_true hs
  obtain ⟨snapshot,stream,hstate,htells,hdrain⟩ := drained ⟨by decide,by decide⟩
    (.inr (.inr (Option.some_ne_none 6))) hrun (show s.clock ≤ 5 by rw [hclock]; decide)
  refine ⟨s,snapshot,stream,hstate,htells,hresends,htimed,fun times hcount hsorted => ?_⟩
  obtain ⟨s',outs,hreplay,hsent,-,-,hbytes,hdone⟩ := hdrain times hcount hsorted
  exact ⟨s',outs,hreplay,hsent,hbytes,hdone⟩

end Drain

end AnyKvm.Streams
