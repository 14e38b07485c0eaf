import AnyKvm.Draining

/-! A NACK for a packet that is young and among the last ones is answered by a resend of it. -/
namespace AnyKvm.Streams
open Transition

/-- Whether packets of this payload type can be sent again. -/
def resendable (params : List PayloadParams) (pt : ℕ) : Bool :=
  (params.find? fun p => p.pt = pt).any (·.resend.isSome)

def Action.isResendable (params : List PayloadParams) : Action → Bool
  | .write pt .. => resendable params pt
  | _ => true

def sentAt (sent : List (SentPacket × ℕ)) : List ℕ :=
  (sent.filter fun p => p.1.kind = .regular).map (·.2)

theorem sentAt_append (sent more : List (SentPacket × ℕ)) :
    sentAt (sent ++ more) = sentAt sent ++ sentAt more := by
  simp only [sentAt,List.filter_append,List.map_append]

theorem sentAt_length (sent : List (SentPacket × ℕ)) :
    (sentAt sent).length = (regulars sent).length := by
  simp only [sentAt,regulars,List.length_map,List.filter_map]
  rfl

/-- The cache has seen all packets that were sent, each at its time. -/
structure Remembers (params : List PayloadParams) (init : StreamTx) (s : State)
    (out : List (RtpPacket × ℕ)) (last : ℕ) : Prop where
  resendable : ∀ p ∈ s.written, resendable params p.header.payloadType = true
  packets : out.map (·.1.untimed) = s.written.take out.length
  times : out.map (·.2) = sentAt s.sent
  holds : s.stream.rtxCache.packetBySeqNo.Holds (out.map entryOf) (init.seqNo+out.length) last
  past : last ≤ s.clock
  limits : s.stream.rtxCache.packetBySeqNo.SameLimits
    (RtxCache.new rtxCachePackets defaultRtxCacheDuration).packetBySeqNo
  newest : 0 < out.length →
    s.stream.rtxCache.lastCachedSeqNo = some (init.seqNo+out.length-1)

section Steps

variable {params : List PayloadParams} {exts : ExtensionMap} {init : StreamTx} {s s' : State}
  {out : List (RtpPacket × ℕ)} {last : ℕ}

theorem Remembers.length_eq (h : Remembers params init s out last) :
    out.length = (regulars s.sent).length := by
  rw [← sentAt_length,← h.times,List.length_map]

theorem Inv.length_regulars (h : Inv params init s) :
    (regulars s.sent).length+s.stream.sendQueue.queue.length = s.written.length := by
  obtain ⟨taken,hwritten,hregulars⟩ := h.order
  have hlen := congrArg List.length hregulars
  rw [List.length_map,List.length_map] at hlen
  rw [hwritten,List.length_append,List.length_map,hlen]

theorem Inv.length_regulars_le (h : Inv params init s) : (regulars s.sent).length ≤ s.written.length := by
  rw [← h.length_regulars]
  exact Nat.le_add_right _ _

theorem Remembers.length_le (h : Remembers params init s out last) (hinv : Inv params init s) :
    out.length ≤ s.written.length :=
  h.length_eq ▸ hinv.length_regulars_le

theorem Remembers.touch (h : Remembers params init s out last) (hinv : Inv params init s)
    {more : List RtpPacket} (hwritten : s'.written = s.written ++ more)
    (hmore : ∀ p ∈ more, Streams.resendable params p.header.payloadType = true)
    (hsent : sentAt s'.sent = sentAt s.sent) (hcache : s'.stream.rtxCache = s.stream.rtxCache)
    (hclock : s.clock ≤ s'.clock) : Remembers params init s' out last := by
  refine ⟨?_,?_,h.times.trans hsent.symm,hcache ▸ h.holds,h.past.trans hclock,hcache ▸ h.limits,
    hcache ▸ h.newest⟩
  · intro p hp
    rw [hwritten] at hp
    rcases List.mem_append.mp hp with hp | hp
    · exact h.resendable p hp
    · exact hmore p hp
  · rw [hwritten,List.take_append_of_le_length (h.length_le hinv)]
    exact h.packets

theorem Remembers.kept (h : Remembers params init s out last) (hinv : Inv params init s)
    (hwritten : s'.written = s.written) (hsent : sentAt s'.sent = sentAt s.sent)
    (hcache : s'.stream.rtxCache = s.stream.rtxCache) (hclock : s.clock ≤ s'.clock) :
    Remembers params init s' out last :=
  h.touch hinv (hwritten.trans (List.append_nil _).symm) (List.forall_mem_nil _) hsent hcache hclock

theorem Inv.head_written (h : Inv params init s) {p : RtpPacket} {rest : List RtpPacket}
    (hqueue : s.stream.sendQueue.queue = p :: rest) :
    s.written[(regulars s.sent).length]? = some p.untimed := by
  obtain ⟨taken,hwritten,hregulars⟩ := h.order
  have hlen := congrArg List.length hregulars
  rw [List.length_map,List.length_map] at hlen
  rw [hwritten,hlen,List.getElem?_append_right le_rfl,Nat.sub_self,hqueue]
  rfl

theorem Inv.seqNo_of_getElem (h : Inv params init s) {k : ℕ} {p : RtpPacket}
    (hp : s.written[k]? = some p) : p.seqNo = init.seqNo+k := by
  have hlt : k < s.written.length := by
    by_contra hge
    rw [List.getElem?_eq_none (by omega)] at hp
    cases hp
  have hmap : (s.written.map (·.seqNo))[k]? = some p.seqNo := by rw [List.getElem?_map,hp]; rfl
  rw [h.numbers,List.getElem?_range' hlt] at hmap
  have := Option.some.inj hmap
  omega

theorem handleNack_rtxCache (stream : StreamTx) (entries : List NackEntry) (now : ℕ) :
    (stream.handleNack entries now).rtxCache = stream.rtxCache := by
  rw [StreamTx.handleNack]
  split
  · rfl
  · rfl

/-- The head of the queue is cached when it goes out. -/
theorem Remembers.sentFirst (h : Remembers params init s out last) (hinv : Inv params init s)
    (hvideo : init.isAudio = false) {now : ℕ} (hle : s.clock ≤ now) {p : RtpPacket}
    {rest : List RtpPacket} (hqueue : s.stream.sendQueue.queue = p :: rest) {param : PayloadParams}
    (hfind : params.find? (fun x => x.pt = p.header.payloadType) = some param) {cache : RtxCache}
    (hcache : if (leaving p param now).nackable = true then
        s.stream.rtxCache.cacheSentPacket (leaving p param now) now = .ok cache
      else cache = s.stream.rtxCache)
    (hs' : s'.stream.rtxCache = cache) (hwritten : s'.written = s.written)
    (hsent : sentAt s'.sent = sentAt s.sent ++ [now]) (hclock : s'.clock = now) :
    Remembers params init s' (out ++ [(leaving p param now,now)]) now := by
  have hhead := hinv.head_written hqueue
  rw [← h.length_eq] at hhead
  obtain ⟨hpay,hnack⟩ := hinv.queued (p := p) (hqueue ▸ .head _)
  have hresend : param.resend.isSome = true := by
    have := h.resendable _ (List.mem_of_getElem? hhead)
    rwa [Streams.resendable,show p.untimed.header = p.header from rfl,hfind] at this
  have hleaving : (leaving p param now).nackable = true := by
    rw [leaving,hnack,hvideo,hresend]
    rfl
  have huntimed : (leaving p param now).untimed = p.untimed := by
    simp only [leaving,RtpPacket.untimed,hresend,Bool.and_true]
  rw [if_pos hleaving] at hcache
  have hnumber : p.untimed.seqNo = init.seqNo+out.length := hinv.seqNo_of_getElem hhead
  have hseq : (leaving p param now).seqNo = init.seqNo+out.length := hnumber
  obtain ⟨c,hc,hholds,hlimits,hnewest⟩ :=
    RtxCache.cacheSentPacket_holds h.holds hseq (h.past.trans hle) hleaving
      (hpay.fits.trans_lt (by decide))
  cases hcache.symm.trans hc
  refine ⟨hwritten ▸ h.resendable,?_,?_,?_,hclock.symm.le,hs' ▸ hlimits.trans h.limits,fun _ => ?_⟩
  · rw [List.map_append,List.length_append,hwritten,List.length_singleton,List.take_add_one,hhead,
      h.packets]
    exact congrArg (_ ++ [·]) huntimed
  · rw [List.map_append,h.times,hsent]
    rfl
  · rw [hs',List.length_append,List.length_singleton,← Nat.add_assoc]
    exact hholds
  · rw [hs',hnewest,List.length_append,List.length_singleton]
    exact congrArg some (by omega)

/-- A poll adds what it sends for the first time, and a resend leaves the cache as it is. -/
theorem Remembers.poll (hd : Negotiated params) (hrtx : RtxDeclared params init)
    (hvideo : init.isAudio = false) (hinv : Inv params init s) (h : Remembers params init s out last)
    {now : ℕ} {overCap : Bool} (hallowed : s.clock ≤ now)
    (hperform : perform params exts s (.poll now overCap) = .ok s') :
    ∃ out' last', Remembers params init s' out' last' := by
  obtain ⟨sending,fresh,haccounts⟩ := hinv.queue
  by_cases hnone : overCap = true ∨ s.stream.resends = []
  · cases sending with
    | nil =>
      rw [perform,(hinv.poll_idle hallowed overCap hnone haccounts).1] at hperform
      cases hperform
      exact ⟨out,last,h.kept hinv rfl
        (by simp only [Option.toList_none,List.map_nil,List.append_nil]) rfl hallowed⟩
    | cons p sending =>
      obtain ⟨o,q,cache,param,t,ht,-,heq,-,hfind,hcache,hkind,-⟩ :=
        hinv.poll_head hd hallowed overCap hnone haccounts
      cases hperform.symm.trans ht
      refine ⟨_,now,h.sentFirst hinv hvideo hallowed haccounts.queue hfind hcache
        (by rw [heq]) (by rw [heq]) ?_ (by rw [heq])⟩
      rw [heq,sentAt_append]
      simp only [sentAt,hkind,decide_true,List.filter_cons_of_pos,List.filter_nil,List.map_cons,
        List.map_nil]
  · obtain ⟨hcap,hresends⟩ := not_or.mp hnone
    obtain ⟨r,resends,hcons⟩ := List.exists_cons_of_ne_nil hresends
    obtain ⟨p,pkt,t,ht,-,heq,-,hkind,-⟩ := hinv.poll_again hd hrtx hallowed hcons
    rw [Bool.not_eq_true] at hcap
    subst hcap
    have hsame := Outcome.ok.inj (hperform.symm.trans ht)
    rw [← hsame] at heq
    refine ⟨out,last,h.kept hinv (by rw [heq]) ?_ (by rw [heq]) (by rw [heq]; exact hallowed)⟩
    rw [heq,sentAt_append]
    simp [sentAt,hkind]

theorem Remembers.step (hd : Negotiated params) (hrtx : RtxDeclared params init)
    (hvideo : init.isAudio = false) (hinv : Inv params init s) (h : Remembers params init s out last)
    {a : Action} (ha : a.isResendable params = true) (hstep : step params exts s a = some s') :
    ∃ out' last', Remembers params init s' out' last' := by
  obtain ⟨hallowed,hperform⟩ := step_eq_some.mp hstep
  cases a with
  | write pt time marker payload =>
    cases hperform
    refine ⟨out,last,h.touch hinv rfl ?_ rfl rfl le_rfl⟩
    intro p hp
    simp only [StreamTx.writeRtp,SendQueue.push,List.getLast?_append,List.getLast?_singleton,
      Option.some_or,Option.toList_some,List.mem_singleton] at hp
    rw [hp]
    exact ha
  | timeout now =>
    obtain ⟨stream,hstream,hok⟩ := Outcome.bind_eq_ok.mp hperform
    obtain ⟨q,-,hq⟩ := Outcome.bind_eq_ok.mp hstream
    cases hq
    cases hok
    exact ⟨out,last,h.kept hinv rfl rfl rfl hallowed⟩
  | nack now entries =>
    cases hperform
    exact ⟨out,last,h.kept hinv rfl rfl (handleNack_rtxCache _ _ _) hallowed⟩
  | queueState now =>
    obtain ⟨x,hx,hok⟩ := Outcome.bind_eq_ok.mp hperform
    obtain ⟨y,-,hy⟩ := Outcome.bind_eq_ok.mp hx
    cases hy
    cases hok
    exact ⟨out,last,h.kept hinv rfl rfl rfl hallowed⟩
  | poll now overCap =>
    exact h.poll hd hrtx hvideo hinv hallowed hperform

/-- What a packet that was sent is in the cache, while it is young and among the last. -/
theorem Remembers.found (h : Remembers params init s out last) {k t : ℕ} {p : RtpPacket}
    (hseq : p.seqNo = init.seqNo+k)
    (hp : s.written[k]? = some p) (ht : (sentAt s.sent)[k]? = some t)
    (hyoung : last-t ≤ defaultRtxCacheDuration)
    (hrecent : (regulars s.sent).length ≤ k+rtxCachePackets) :
    ∃ pkt, s.stream.rtxCache.getCachedPacketBySeqNo p.seqNo = some pkt ∧ pkt.media = p.media := by
  have hk : k < out.length := by
    rw [h.length_eq,← sentAt_length]
    by_contra hge
    rw [List.getElem?_eq_none (by omega)] at ht
    cases ht
  obtain ⟨⟨pkt,t'⟩,hget⟩ : ∃ x, out[k]? = some x := ⟨_,List.getElem?_eq_getElem hk⟩
  have htime : t' = t := by
    rw [← h.times,List.getElem?_map,hget] at ht
    exact Option.some.inj ht
  have huntimed : pkt.untimed = p := by
    have hmap : (out.map (·.1.untimed))[k]? = some pkt.untimed := by rw [List.getElem?_map,hget]; rfl
    rw [h.packets,List.getElem?_take,if_pos hk,hp] at hmap
    exact (Option.some.inj hmap).symm
  have hage : s.stream.rtxCache.packetBySeqNo.maxAge = defaultRtxCacheDuration := h.limits.maxAge
  have hmax : s.stream.rtxCache.packetBySeqNo.maxSize = rtxCachePackets := h.limits.maxSize
  have hfound := h.holds.get_young (le_max_right _ _)
    (List.mem_map_of_mem (f := entryOf) (List.mem_of_getElem? hget))
    (by rw [hage]; exact htime ▸ hyoung)
    (by
      rw [hmax]
      have hentry : (entryOf (pkt,t')).position = init.seqNo+k := by rw [← hseq,← huntimed]; rfl
      rw [hentry,h.length_eq]
      omega)
  refine ⟨pkt,?_,by rw [← huntimed]; rfl⟩
  rw [← huntimed]
  exact hfound

end Steps

end AnyKvm.Streams
