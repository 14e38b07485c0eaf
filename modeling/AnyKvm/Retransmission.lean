import AnyKvm.PollPacket

/-! Runs of an outgoing stream: packets leave once and in order, and whatever is sent again is
what was sent before. -/
namespace AnyKvm.Streams
open Transition
open H264 (srtpBlockSize rtpMtu)

def regulars (sent : List (SentPacket × ℕ)) : List SentPacket :=
  (sent.map (·.1)).filter fun p => p.kind = .regular

def again (sent : List (SentPacket × ℕ)) : List SentPacket :=
  (sent.map (·.1)).filter fun p => p.kind ≠ .regular

def RtpPacket.untimed (p : RtpPacket) : RtpPacket := { p with timestamp := none }

def RtpPacket.media (p : RtpPacket) : Option (RtpHeader × Bytes) := some (p.header,p.payload)

/-- The invariant of the runs. -/
structure Inv (params : List PayloadParams) (init : StreamTx) (s : State) : Prop where
  ssrc : s.stream.ssrc = init.ssrc
  rtx : s.stream.rtx = init.rtx
  audio : s.stream.isAudio = init.isAudio
  queue : ∃ sending fresh, s.stream.sendQueue.Accounts s.clock s.waited sending fresh
  numbers : s.written.map (·.seqNo) = List.range' init.seqNo s.written.length
  next : s.stream.seqNo = init.seqNo+s.written.length
  payloaded : ∀ p ∈ s.written, Payloaded params init p ∧ p.nackable = !init.isAudio
  order : ∃ taken, s.written = taken ++ s.stream.sendQueue.queue.map (·.untimed) ∧
    (regulars s.sent).map (receive params init.ssrc) = taken.map (·.media)
  cache : s.stream.rtxCache.packetBySeqNo.Sound (Cached params init s.sent)
  resends : ∀ r ∈ s.stream.resends, ∃ pkt,
    s.stream.rtxCache.getCachedPacketBySeqNo r.seqNo = some pkt ∧
      r.payloadSize = pkt.payload.length
  rtxNumbers : (again s.sent).map (·.header.sequenceNumber) =
    (List.range' init.seqNoRtx (again s.sent).length).map (· % 2^16)
  rtxNext : s.stream.seqNoRtx = init.seqNoRtx+(again s.sent).length
  aligned : ∀ p ∈ s.sent, p.1.body.length % srtpBlockSize = 0
  repeated : ∀ before p after, s.sent = before ++ p :: after → p.1.kind ≠ .regular →
    ∃ r ∈ before, r.1.kind = .regular ∧ receive params init.ssrc r.1 = receive params init.ssrc p.1

section Lists

variable {p : SentPacket}

theorem regulars_append (sent more : List (SentPacket × ℕ)) :
    regulars (sent ++ more) = regulars sent ++ regulars more := by
  simp only [regulars,List.map_append,List.filter_append]

theorem again_append (sent more : List (SentPacket × ℕ)) :
    again (sent ++ more) = again sent ++ again more := by
  simp only [again,List.map_append,List.filter_append]

theorem regulars_regular (sent : List (SentPacket × ℕ)) (t : ℕ) (hp : p.kind = .regular) :
    regulars (sent ++ [(p,t)]) = regulars sent ++ [p] ∧ again (sent ++ [(p,t)]) = again sent := by
  rw [regulars_append,again_append]
  simp [regulars,again,hp]

theorem regulars_again (sent : List (SentPacket × ℕ)) (t : ℕ) (hp : p.kind ≠ .regular) :
    regulars (sent ++ [(p,t)]) = regulars sent ∧ again (sent ++ [(p,t)]) = again sent ++ [p] := by
  rw [regulars_append,again_append]
  simp [regulars,again,hp]

theorem append_singleton_split {α : Type} {l before after : List α} {x y : α}
    (h : l ++ [x] = before ++ y :: after) :
    (∃ after', l = before ++ y :: after' ∧ after = after' ++ [x]) ∨ (l = before ∧ y = x) := by
  rcases after.eq_nil_or_concat with rfl | ⟨after',z,rfl⟩
  · obtain ⟨hl,hx⟩ := List.append_inj' h rfl
    exact .inr ⟨hl,(List.singleton_inj.mp hx).symm⟩
  · rw [List.concat_eq_append,← List.cons_append,← List.append_assoc] at h
    obtain ⟨hl,hx⟩ := List.append_inj' h rfl
    exact .inl ⟨after',hl,by rw [List.concat_eq_append,List.singleton_inj.mp hx]⟩

theorem waitedAfter_eq {q : SendQueue} {clock waited now : ℕ} {sending fresh : List RtpPacket}
    {p : RtpPacket} (h : q.Accounts clock waited (p :: sending) fresh) :
    q.waitedAfter waited now = if sending = [] then 0 else waited+p.wait now := by
  obtain ⟨seen,-,hcounts⟩ := h.counts
  have hfilter : q.queue.filter (·.timestamp.isSome) = p :: sending := by
    rw [h.queue,List.filter_append,List.filter_eq_self.mpr,List.filter_eq_nil_iff.mpr,List.append_nil]
    · intro r hr
      rw [h.fresh r hr]
      exact Bool.false_ne_true
    · intro r hr
      obtain ⟨u,-,hu⟩ := hcounts.past r hr
      rw [hu]
      rfl
  rw [SendQueue.waitedAfter,hfilter]
  cases sending with
  | nil => rfl
  | cons r rest => rw [if_neg (List.cons_ne_nil _ _)]

end Lists

section Steps

variable {params : List PayloadParams} {exts : ExtensionMap} {init : StreamTx} {s : State} {now : ℕ}

theorem inv_start (ssrc : ℕ) (rtx : Option ℕ) (mid : Mid) (rid : Option Rid) (isAudio : Bool)
    (seqNo seqNoRtx clock : ℕ) :
    Inv params (.new ssrc rtx mid rid isAudio seqNo seqNoRtx)
      { stream := .new ssrc rtx mid rid isAudio seqNo seqNoRtx,clock } where
  ssrc := rfl
  rtx := rfl
  audio := rfl
  queue := ⟨[],[],SendQueue.accounts_new _⟩
  numbers := rfl
  next := rfl
  payloaded := nofun
  order := ⟨[],rfl,rfl⟩
  cache := EvictingBuffer.sound_new _ _ _
  resends := nofun
  rtxNumbers := rfl
  rtxNext := rfl
  aligned := nofun
  repeated := fun before _ _ h => by simp at h

theorem Inv.queued (h : Inv params init s) {p : RtpPacket} (hp : p ∈ s.stream.sendQueue.queue) :
    Payloaded params init p ∧ p.nackable = !init.isAudio := by
  obtain ⟨taken,hwritten,-⟩ := h.order
  have hmem : p.untimed ∈ s.written := by
    rw [hwritten]
    exact List.mem_append_right _ (List.mem_map_of_mem hp)
  obtain ⟨⟨hnumber,hssrc,hknown,hfits⟩,hnack⟩ := h.payloaded _ hmem
  exact ⟨⟨hnumber,hssrc,hknown,hfits⟩,hnack⟩

theorem Inv.write (h : Inv params init s) {pt : ℕ} {payload : Bytes} (hknown : hasPt params pt = true)
    (hfits : payload.length ≤ rtpMtu) (time : ℕ) (marker : Bool) :
    ∃ s', perform params exts s (.write pt time marker payload) = .ok s' ∧ Inv params init s' := by
  set p : RtpPacket :=
    { seqNo := s.stream.seqNo
      header := { marker,payloadType := pt,sequenceNumber := s.stream.seqNo % 2^16,timestamp := time,
                  ssrc := s.stream.ssrc }
      payload,timestamp := none,nackable := !s.stream.isAudio } with hp
  have hwritten : (s.stream.writeRtp pt time marker payload).sendQueue.queue.getLast?.toList = [p] := by
    simp only [StreamTx.writeRtp,SendQueue.push,List.getLast?_append,List.getLast?_singleton,
      Option.some_or,Option.toList_some,hp]
  refine ⟨_,rfl,?_⟩
  rw [hwritten]
  obtain ⟨sending,fresh,haccounts⟩ := h.queue
  obtain ⟨taken,horder,hregulars⟩ := h.order
  exact
    { ssrc := h.ssrc
      rtx := h.rtx
      audio := h.audio
      queue := ⟨_,_,haccounts.push p⟩
      numbers := by
        rw [List.map_append,List.length_append,h.numbers,List.range'_append_1.symm]
        simp only [List.map_cons,List.map_nil,List.length_singleton,List.range'_one,hp,h.next]
      next := by
        simp only [StreamTx.writeRtp,h.next,List.length_append,List.length_singleton]
        omega
      payloaded := by
        intro r hr
        rcases List.mem_append.mp hr with hr | hr
        · exact h.payloaded r hr
        · rw [List.mem_singleton.mp hr]
          exact ⟨⟨rfl,h.ssrc,hknown,hfits⟩,congrArg not h.audio⟩
      order := ⟨taken,by
        simp only [StreamTx.writeRtp,SendQueue.push,List.map_append,List.map_cons,List.map_nil,horder,
          List.append_assoc]
        rfl,hregulars⟩
      cache := h.cache
      resends := h.resends
      rtxNumbers := h.rtxNumbers
      rtxNext := h.rtxNext
      aligned := h.aligned
      repeated := h.repeated }

theorem Inv.touch (h : Inv params init s) {q : SendQueue}
    (hqueue : q.queue.map (·.untimed) = s.stream.sendQueue.queue.map (·.untimed))
    (haccounts : ∃ sending fresh, q.Accounts now s.waited sending fresh) :
    Inv params init { s with stream := { s.stream with sendQueue := q },clock := now } := by
  obtain ⟨taken,horder,hregulars⟩ := h.order
  exact ⟨h.ssrc,h.rtx,h.audio,haccounts,h.numbers,h.next,h.payloaded,
    ⟨taken,horder.trans (by rw [hqueue]),hregulars⟩,h.cache,h.resends,h.rtxNumbers,h.rtxNext,h.aligned,
    h.repeated⟩

theorem Inv.timeout (h : Inv params init s) (hle : s.clock ≤ now) :
    ∃ s', perform params exts s (.timeout now) = .ok s' ∧ Inv params init s' := by
  obtain ⟨sending,fresh,haccounts⟩ := h.queue
  obtain ⟨q,hq,haccounts',-⟩ := haccounts.handleTimeout hle
  refine ⟨_,?_,h.touch (q := q) ?_ ⟨_,_,haccounts'⟩⟩
  · simp only [perform,StreamTx.handleTimeout,hq,Outcome.ok_bind]
  · rw [haccounts'.queue,haccounts.queue,List.append_nil,List.map_append,List.map_append,List.map_map]
    congr 1

theorem Inv.queueState (h : Inv params init s) (hle : s.clock ≤ now) :
    ∃ s', perform params exts s (.queueState now) = .ok s' ∧ Inv params init s' := by
  obtain ⟨sending,fresh,haccounts⟩ := h.queue
  obtain ⟨q,hq,haccounts',-⟩ := haccounts.snapshot hle
  refine ⟨_,?_,h.touch (q := q) ?_ ⟨_,_,haccounts'⟩⟩
  · simp only [perform,StreamTx.queueState,hq,Outcome.ok_bind]
  · rw [haccounts'.queue,haccounts.queue]

theorem Inv.nack (h : Inv params init s) (hle : s.clock ≤ now) (entries : List NackEntry) :
    Inv params init { s with stream := s.stream.handleNack entries now,clock := now } := by
  obtain ⟨sending,fresh,haccounts⟩ := h.queue
  rcases hlast : s.stream.rtxCache.lastCachedSeqNo with - | last
  · have hsame : s.stream.handleNack entries now = s.stream := by rw [StreamTx.handleNack,hlast]
    rw [hsame]
    exact h.touch (q := s.stream.sendQueue) rfl ⟨_,_,haccounts.later hle⟩
  · have hnack : s.stream.handleNack entries now =
        { s.stream with resends := s.stream.resends ++
            (entries.flatMap (·.intoIter last)).filterMap fun seqNo =>
              (s.stream.rtxCache.getCachedPacketBySeqNo seqNo).map fun packet =>
                { seqNo,queuedAt := now,payloadSize := packet.payload.length } } := by
      rw [StreamTx.handleNack,hlast]
    rw [hnack]
    refine ⟨h.ssrc,h.rtx,h.audio,⟨_,_,haccounts.later hle⟩,h.numbers,h.next,h.payloaded,h.order,h.cache,
      ?_,h.rtxNumbers,h.rtxNext,h.aligned,h.repeated⟩
    intro r hr
    rcases List.mem_append.mp hr with hr | hr
    · exact h.resends r hr
    · obtain ⟨seqNo,-,hseq⟩ := List.mem_filterMap.mp hr
      obtain ⟨pkt,hpkt,rfl⟩ := Option.map_eq_some_iff.mp hseq
      exact ⟨pkt,hpkt,rfl⟩

theorem Inv.sentAgain (h : Inv params init s) (hle : s.clock ≤ now) {r : Resend} {resends : List Resend}
    (hresends : s.stream.resends = r :: resends) {p : SentPacket} {pkt : RtpPacket}
    (hget : s.stream.rtxCache.getCachedPacketBySeqNo r.seqNo = some pkt)
    (hkind : p.kind = .resend r.seqNo)
    (hnumber : p.header.sequenceNumber = s.stream.seqNoRtx % 2^16)
    (haligned : p.body.length % srtpBlockSize = 0)
    (hreceive : receive params init.ssrc p = some (pkt.header,pkt.payload)) :
    Inv params init { s with
      stream := { s.stream with resends,seqNoRtx := s.stream.seqNoRtx+1 }
      clock := now
      sent := s.sent ++ [(p,now)] } := by
  have hne : p.kind ≠ .regular := by rw [hkind]; exact NextPacketKind.noConfusion
  obtain ⟨hregs,hagain⟩ := regulars_again s.sent now hne
  obtain ⟨sending,fresh,haccounts⟩ := h.queue
  have hc := h.cache.get hget
  exact
    { ssrc := h.ssrc
      rtx := h.rtx
      audio := h.audio
      queue := ⟨_,_,haccounts.later hle⟩
      numbers := h.numbers
      next := h.next
      payloaded := h.payloaded
      order := by rw [hregs]; exact h.order
      cache := fun i e he => (h.cache i e he).mono _
      resends := fun r' hr => h.resends r' (hresends ▸ .tail _ hr)
      rtxNumbers := by
        rw [hagain,List.map_append,h.rtxNumbers,List.length_append,List.length_singleton,
          ← List.range'_append_1,List.map_append]
        simp only [List.map_cons,List.map_nil,List.range'_one,hnumber,h.rtxNext]
      rtxNext := by
        rw [hagain,List.length_append,List.length_singleton]
        simp only [h.rtxNext]
        omega
      aligned := by
        intro x hx
        rcases List.mem_append.mp hx with hx | hx
        · exact h.aligned x hx
        · rw [List.mem_singleton.mp hx]
          exact haligned
      repeated := by
        intro before x after hsplit hx
        rcases append_singleton_split hsplit with ⟨after',hold,-⟩ | ⟨rfl,rfl⟩
        · exact h.repeated before x after' hold hx
        · obtain ⟨first,hfirst,hreg,hsame⟩ := hc.earlier
          exact ⟨first,hfirst,hreg,hsame.trans hreceive.symm⟩ }

/-- The cache has got the packet if it can be sent again. -/
theorem Inv.cache_sentFirst (h : Inv params init s) {p : RtpPacket} {cache : RtxCache} {out : SentPacket}
    {param : PayloadParams} (hpay : Payloaded params init p) (hnack : p.nackable = !init.isAudio)
    (hfind : params.find? (fun x => x.pt = p.header.payloadType) = some param)
    (hcache : if (leaving p param now).nackable = true then
        s.stream.rtxCache.cacheSentPacket (leaving p param now) now = .ok cache
      else cache = s.stream.rtxCache)
    (hkind : out.kind = .regular) (hreceive : receive params init.ssrc out = some (p.header,p.payload)) :
    cache.packetBySeqNo.Sound (Cached params init (s.sent ++ [(out,now)])) := by
  have hold : s.stream.rtxCache.packetBySeqNo.Sound (Cached params init (s.sent ++ [(out,now)])) :=
    fun i e he => (h.cache i e he).mono _
  split at hcache
  case _ hleaving =>
    have hboth := (Bool.and_eq_true _ _).mp hleaving
    obtain ⟨ptRtx,hresend⟩ := Option.isSome_iff_exists.mp hboth.2
    have hvideo : init.isAudio = false := by
      rw [hnack] at hboth
      simpa using hboth.1
    rw [RtxCache.cacheSentPacket] at hcache
    split at hcache
    case _ =>
      cases hcache
      refine (hold.push ?_ now).maybeEvict now
      exact ⟨rfl,hvideo,hleaving,⟨hpay.number,hpay.ssrc,hpay.known,hpay.fits⟩,
        ⟨param,ptRtx,hfind,hresend⟩,(out,now),by simp,hkind,hreceive⟩
    case _ => cases hcache
  case _ =>
    rw [hcache]
    exact hold

theorem Inv.sentFirst (h : Inv params init s) {p : RtpPacket} {sending fresh : List RtpPacket}
    (haccounts : s.stream.sendQueue.Accounts s.clock s.waited (p :: sending) fresh)
    {q : SendQueue} {cache : RtxCache} {waited : ℕ} {out : SentPacket} {param : PayloadParams}
    (hfind : params.find? (fun x => x.pt = p.header.payloadType) = some param)
    (haccounts' : q.Accounts now waited sending fresh)
    (hcache : if (leaving p param now).nackable = true then
        s.stream.rtxCache.cacheSentPacket (leaving p param now) now = .ok cache
      else cache = s.stream.rtxCache)
    (hkind : out.kind = .regular) (haligned : out.body.length % srtpBlockSize = 0)
    (hreceive : receive params init.ssrc out = some (p.header,p.payload)) :
    Inv params init { s with
      stream := { s.stream with resends := [],sendQueue := q,rtxCache := cache }
      clock := now
      sent := s.sent ++ [(out,now)]
      waited } := by
  obtain ⟨hregs,hagain⟩ := regulars_regular s.sent now hkind
  have hqueue : s.stream.sendQueue.queue = p :: q.queue := by
    rw [haccounts.queue,haccounts'.queue,List.cons_append]
  obtain ⟨hpay,hnack⟩ := h.queued (p := p) (hqueue ▸ .head _)
  obtain ⟨taken,horder,hregulars⟩ := h.order
  exact
    { ssrc := h.ssrc
      rtx := h.rtx
      audio := h.audio
      queue := ⟨_,_,haccounts'⟩
      numbers := h.numbers
      next := h.next
      payloaded := h.payloaded
      order := by
        refine ⟨taken ++ [p.untimed],?_,?_⟩
        · rw [horder,hqueue,List.map_cons,List.append_assoc,List.singleton_append]
        · rw [hregs,List.map_append,hregulars,List.map_append]
          exact congrArg _ (congrArg (· :: []) hreceive)
      cache := h.cache_sentFirst hpay hnack hfind hcache hkind hreceive
      resends := nofun
      rtxNumbers := by rw [hagain]; exact h.rtxNumbers
      rtxNext := by rw [hagain]; exact h.rtxNext
      aligned := by
        intro x hx
        rcases List.mem_append.mp hx with hx | hx
        · exact h.aligned x hx
        · rw [List.mem_singleton.mp hx]
          exact haligned
      repeated := by
        intro before x after hsplit hx
        rcases append_singleton_split hsplit with ⟨after',hold,-⟩ | ⟨-,rfl⟩
        · exact h.repeated before x after' hold hx
        · exact absurd hkind hx }

theorem Inv.poll_again (hd : Negotiated params) (hrtx : RtxDeclared params init) (h : Inv params init s)
    (hle : s.clock ≤ now) {r : Resend} {resends : List Resend}
    (hcons : s.stream.resends = r :: resends) :
    ∃ p pkt s', perform params exts s (.poll now false) = .ok s' ∧ Inv params init s' ∧
      s' = { s with
        stream := { s.stream with resends,seqNoRtx := s.stream.seqNoRtx+1 }
        clock := now
        sent := s.sent ++ [(p,now)] } ∧
      s.stream.rtxCache.getCachedPacketBySeqNo r.seqNo = some pkt ∧ p.kind = .resend r.seqNo ∧
      receive params init.ssrc p = pkt.media := by
  obtain ⟨pkt,hget,-⟩ := h.resends r (hcons ▸ .head _)
  obtain ⟨p,hpoll,hkind,hnumber,haligned,hreceive⟩ :=
    poll_resend exts hd hrtx h.rtx h.cache hcons hget now
  refine ⟨p,pkt,_,?_,h.sentAgain hle hcons hget hkind hnumber haligned hreceive,rfl,hget,hkind,hreceive⟩
  have hlt : ¬(s.stream.sendQueue.queue.length < s.stream.sendQueue.queue.length) := lt_irrefl _
  simp only [Streams.perform,hpoll,Outcome.ok_bind,hlt,if_false,Option.toList_some,List.map_cons,List.map_nil]

theorem Inv.poll_head (hd : Negotiated params) (h : Inv params init s) (hle : s.clock ≤ now)
    (overCap : Bool) (hnone : overCap = true ∨ s.stream.resends = []) {p : RtpPacket}
    {sending fresh : List RtpPacket}
    (haccounts : s.stream.sendQueue.Accounts s.clock s.waited (p :: sending) fresh) :
    ∃ out q cache param s', perform params exts s (.poll now overCap) = .ok s' ∧ Inv params init s' ∧
      s' = { s with
        stream := { s.stream with resends := [],sendQueue := q,rtxCache := cache }
        clock := now
        sent := s.sent ++ [(out,now)]
        waited := if sending = [] then 0 else s.waited+p.wait now } ∧
      q.Accounts now (if sending = [] then 0 else s.waited+p.wait now) sending fresh ∧
      params.find? (fun x => x.pt = p.header.payloadType) = some param ∧
      (if (leaving p param now).nackable = true then
        s.stream.rtxCache.cacheSentPacket (leaving p param now) now = .ok cache
      else cache = s.stream.rtxCache) ∧
      out.kind = .regular ∧ receive params init.ssrc out = p.media := by
  have hpoll := poll_queue params exts now hnone
  have hmem : p ∈ s.stream.sendQueue.queue := haccounts.queue ▸ .head _
  obtain ⟨hpay,-⟩ := h.queued hmem
  obtain ⟨param,hfind⟩ := exists_find hpay.known
  obtain ⟨out,q,cache,hsend,haccounts',-,hcache,hkind,haligned,hreceive⟩ :=
    sendRegular_head (s := { s.stream with resends := [] }) hd haccounts hle hfind hpay.fits init.ssrc
  rw [hsend] at hpoll
  refine ⟨out,q,cache,param,_,?_,h.sentFirst haccounts hfind haccounts' hcache hkind haligned hreceive,
    rfl,haccounts',hfind,hcache,hkind,hreceive⟩
  have hlt : q.queue.length < s.stream.sendQueue.queue.length := by
    rw [haccounts.queue,haccounts'.queue,List.cons_append,List.length_cons]
    omega
  simp only [Streams.perform,hpoll,Outcome.ok_bind,hlt,if_true,waitedAfter_eq haccounts,
    Option.toList_some,List.map_cons,List.map_nil]

theorem Inv.poll_idle (h : Inv params init s) (hle : s.clock ≤ now) (overCap : Bool)
    (hnone : overCap = true ∨ s.stream.resends = []) {fresh : List RtpPacket}
    (haccounts : s.stream.sendQueue.Accounts s.clock s.waited [] fresh) :
    s.stream.pollPacket params exts now overCap = .ok (none,{ s.stream with resends := [] }) ∧
    ∃ s', perform params exts s (.poll now overCap) = .ok s' ∧ Inv params init s' := by
  have hpoll := poll_queue params exts now hnone
  rw [sendRegular_idle (s := { s.stream with resends := [] }) haccounts] at hpoll
  refine ⟨hpoll,_,by simp only [Streams.perform,hpoll,Outcome.ok_bind]; rfl,?_⟩
  have hlt : ¬(s.stream.sendQueue.queue.length < s.stream.sendQueue.queue.length) := lt_irrefl _
  simp only [hlt,if_false,Option.toList_none,List.map_nil,List.append_nil]
  exact ⟨h.ssrc,h.rtx,h.audio,⟨_,_,haccounts.later hle⟩,h.numbers,h.next,h.payloaded,h.order,h.cache,
    nofun,h.rtxNumbers,h.rtxNext,h.aligned,h.repeated⟩

theorem Inv.poll (hd : Negotiated params) (hrtx : RtxDeclared params init) (h : Inv params init s)
    (hle : s.clock ≤ now) (overCap : Bool) :
    ∃ s', perform params exts s (.poll now overCap) = .ok s' ∧ Inv params init s' := by
  obtain ⟨sending,fresh,haccounts⟩ := h.queue
  by_cases hnone : overCap = true ∨ s.stream.resends = []
  · cases sending with
    | nil => exact (h.poll_idle hle overCap hnone haccounts).2
    | cons p sending =>
      obtain ⟨-,-,-,-,s',hs',hinv,-⟩ := h.poll_head hd hle overCap hnone haccounts
      exact ⟨s',hs',hinv⟩
  · obtain ⟨hcap,hresends⟩ := not_or.mp hnone
    obtain ⟨r,resends,hcons⟩ := List.exists_cons_of_ne_nil hresends
    obtain ⟨-,-,s',hs',hinv,-⟩ := h.poll_again hd hrtx hle hcons
    rw [Bool.not_eq_true] at hcap
    exact ⟨s',hcap ▸ hs',hinv⟩

/-- No call that its callers may make panics, and each keeps the invariant. -/
theorem Inv.perform (hd : Negotiated params) (hrtx : RtxDeclared params init) (h : Inv params init s)
    {a : Action} (ha : Allowed params s a) :
    ∃ s', perform params exts s a = .ok s' ∧ Inv params init s' := by
  cases a with
  | write pt time marker payload => exact h.write ha.1 ha.2 time marker
  | timeout now => exact h.timeout ha
  | poll now overCap => exact h.poll hd hrtx ha overCap
  | nack now entries => exact ⟨_,rfl,h.nack ha entries⟩
  | queueState now => exact h.queueState ha

end Steps

section Runs

variable {params : List PayloadParams} {exts : ExtensionMap} {s : State} {as : List Action}
  {ssrc seqNo seqNoRtx clock : ℕ} {rtx : Option ℕ} {mid : Mid} {rid : Option Rid} {isAudio : Bool}

theorem step_eq_some {s' : State} {a : Action} :
    step params exts s a = some s' ↔ Allowed params s a ∧ perform params exts s a = .ok s' := by
  rw [step]
  by_cases hallowed : Allowed params s a
  · rw [if_pos hallowed]
    rcases perform params exts s a with s'' | e | -
    · simp [hallowed]
    · cases e
    · simp
  · rw [if_neg hallowed]
    simp [hallowed]

theorem inv_run (hd : Negotiated params) (hrtx : RtxDeclared params (.new ssrc rtx mid rid isAudio seqNo seqNoRtx))
    (h : Run (step params exts) { stream := .new ssrc rtx mid rid isAudio seqNo seqNoRtx,clock } as s) :
    Inv params (.new ssrc rtx mid rid isAudio seqNo seqNoRtx) s := by
  refine h.invariant (P := fun _ s => Inv params (.new ssrc rtx mid rid isAudio seqNo seqNoRtx) s)
    (inv_start ..) ?_
  intro as s a s' _ hinv hstep
  obtain ⟨hallowed,hperform⟩ := step_eq_some.mp hstep
  obtain ⟨t,ht,hinv'⟩ := hinv.perform hd hrtx hallowed
  cases hperform.symm.trans ht
  exact hinv'

def Action.media : Action → Option (ℕ × ℕ × Bool × Bytes)
  | .write pt time marker payload => some (pt,time,marker,payload)
  | _ => none

theorem written_run {start : State} (h : Run (step params exts) start as s) :
    s.written.map (fun p => (p.header.payloadType,p.header.timestamp,p.header.marker,p.payload)) =
      start.written.map (fun p => (p.header.payloadType,p.header.timestamp,p.header.marker,p.payload)) ++
        as.reverse.filterMap (·.media) := by
  induction h with
  | init => simp
  | @next as s s' a _ hstep ih =>
    obtain ⟨-,hperform⟩ := step_eq_some.mp hstep
    rw [List.reverse_cons,List.filterMap_append,← List.append_assoc,← ih]
    cases a with
    | write pt time marker payload =>
      cases hperform
      simp [StreamTx.writeRtp,SendQueue.push,Action.media]
    | timeout now =>
      obtain ⟨x,-,hok⟩ := Outcome.bind_eq_ok.mp hperform
      cases hok
      simp [Action.media]
    | poll now overCap =>
      obtain ⟨x,-,hok⟩ := Outcome.bind_eq_ok.mp hperform
      cases hok
      simp [Action.media]
    | nack now entries =>
      cases hperform
      simp [Action.media]
    | queueState now =>
      obtain ⟨x,-,hok⟩ := Outcome.bind_eq_ok.mp hperform
      cases hok
      simp [Action.media]

/-- What a stream does with what it is given, whatever the order of the calls. -/
structure Faithful (params : List PayloadParams) (exts : ExtensionMap) (ssrc seqNo seqNoRtx : ℕ)
    (as : List Action) (s : State) : Prop where
  calls : ∀ a, Allowed params s a → perform params exts s a ≠ .panicked
  given : s.written.map (fun p => (p.header.payloadType,p.header.timestamp,p.header.marker,p.payload)) =
    as.reverse.filterMap (·.media)
  numbers : s.written.map (fun p => (p.seqNo,p.header.sequenceNumber)) =
    (List.range' seqNo s.written.length).map fun n => (n,n % 2^16)
  once : ∃ taken, s.written = taken ++ s.stream.sendQueue.queue.map (·.untimed) ∧
    (regulars s.sent).map (receive params ssrc) = taken.map (·.media)
  rtxNumbers : (again s.sent).map (·.header.sequenceNumber) =
    (List.range' seqNoRtx (again s.sent).length).map (· % 2^16)
  repeated : ∀ before p after, s.sent = before ++ p :: after → p.1.kind ≠ .regular →
    ∃ r ∈ before, r.1.kind = .regular ∧ receive params ssrc r.1 = receive params ssrc p.1
  aligned : ∀ p ∈ s.sent, p.1.body.length % srtpBlockSize = 0

/-- Whatever the order of writes, timeouts, polls, NACKs and pacer queries: no call panics; the
packets that were written leave once each, in order and as they were; their numbers and those of
the RTX stream go up by one; and each resend is read at the other end as a packet that was sent
before it. -/
theorem faithful (hd : Negotiated params) (hrtx : RtxDeclared params (.new ssrc rtx mid rid isAudio seqNo seqNoRtx))
    (h : Run (step params exts) { stream := .new ssrc rtx mid rid isAudio seqNo seqNoRtx,clock } as s) :
    Faithful params exts ssrc seqNo seqNoRtx as s := by
  have hinv := inv_run hd hrtx h
  refine ⟨fun a ha hpanic => ?_,written_run h,?_,hinv.order,hinv.rtxNumbers,hinv.repeated,hinv.aligned⟩
  · obtain ⟨t,ht,-⟩ := hinv.perform hd hrtx ha
    exact absurd (ht.symm.trans hpanic) nofun
  · have hnumbers : s.written.map (fun p => (p.seqNo,p.header.sequenceNumber)) =
        (s.written.map (·.seqNo)).map fun n => (n,n % 2^16) := by
      rw [List.map_map]
      refine List.map_congr_left fun p hp => ?_
      rw [(hinv.payloaded p hp).1.number]
      rfl
    rw [hnumbers,hinv.numbers]
    rfl

/-- A packet is written and sent, a NACK asks for it, and it is sent again. -/
theorem faithful_nack : ∃ s, (again s.sent).length = 1 ∧
    Faithful [⟨96,some 97⟩] .standard 5 7 9 [.poll 4 false,.nack 3 [⟨7,0⟩],.poll 2 false,.timeout 1,
      .write 96 90 true [1,2]] s := by
  obtain ⟨s,hrun,hagain⟩ := exists_run_of_replay (step [⟨96,some 97⟩] .standard)
    { stream := .new 5 (some 6) ⟨[48],by decide,by decide⟩ none false 7 9 }
    [.write 96 90 true [1,2],.timeout 1,.poll 2 false,.nack 3 [⟨7,0⟩],.poll 4 false]
    (fun s => (again s.sent).length = 1) (by decide)
  exact ⟨s,of_decide_eq_true hagain,
    faithful ⟨by decide,by decide⟩ (.inr (.inr (Option.some_ne_none 6))) hrun⟩

end Runs

end AnyKvm.Streams
