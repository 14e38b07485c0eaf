import AnyKvm.PacketWire

/-! What one call of `poll_packet` does.  A resend goes before the queue, the head of the queue
before anything else, and each leaves the stream in one way only. -/
namespace AnyKvm.Streams
open H264 (srtpBlockSize rtpMtu)

/-- What is known of a packet in the cache: it was sent, and it can be sent again. -/
structure Cached (params : List PayloadParams) (init : StreamTx) (sent : List (SentPacket × ℕ))
    (seqNo : ℕ) (pkt : RtpPacket) : Prop where
  seqNo : pkt.seqNo = seqNo
  video : init.isAudio = false
  nackable : pkt.nackable = true
  payloaded : Payloaded params init pkt
  resend : ∃ param ptRtx, params.find? (fun p => p.pt = pkt.header.payloadType) = some param ∧
    param.resend = some ptRtx
  earlier : ∃ p ∈ sent, p.1.kind = .regular ∧
    receive params init.ssrc p.1 = some (pkt.header,pkt.payload)

theorem Cached.mono {params : List PayloadParams} {init : StreamTx} {sent : List (SentPacket × ℕ)}
    {seqNo : ℕ} {pkt : RtpPacket} (h : Cached params init sent seqNo pkt)
    (more : List (SentPacket × ℕ)) : Cached params init (sent ++ more) seqNo pkt := by
  obtain ⟨p,hp,hrest⟩ := h.earlier
  exact ⟨h.seqNo,h.video,h.nackable,h.payloaded,h.resend,p,List.mem_append_left _ hp,hrest⟩

/-- A stream that may cache packets for RTX has an SSRC to send them on. -/
def RtxDeclared (params : List PayloadParams) (init : StreamTx) : Prop :=
  init.isAudio = true ∨ (∀ p ∈ params, p.resend = none) ∨ init.rtx ≠ none

section Poll

variable {params : List PayloadParams} {exts : ExtensionMap} {init s : StreamTx} {sent : List (SentPacket × ℕ)}

theorem poll_resend (exts : ExtensionMap) (hd : Negotiated params) (hrtx : RtxDeclared params init) (hs : s.rtx = init.rtx)
    (hcache : s.rtxCache.packetBySeqNo.Sound (Cached params init sent)) {r : Resend}
    {resends : List Resend} (hresends : s.resends = r :: resends) {pkt : RtpPacket}
    (hget : s.rtxCache.getCachedPacketBySeqNo r.seqNo = some pkt) (now : ℕ) :
    ∃ p, s.pollPacket params exts now false =
        .ok (some p,{ s with resends,seqNoRtx := s.seqNoRtx+1 }) ∧
      p.kind = .resend r.seqNo ∧ p.header.sequenceNumber = s.seqNoRtx % 2^16 ∧
      p.body.length % srtpBlockSize = 0 ∧
      receive params init.ssrc p = some (pkt.header,pkt.payload) := by
  have hc := hcache.get hget
  obtain ⟨param,ptRtx,hfind,hresend⟩ := hc.resend
  obtain ⟨ssrcRtx,hssrc⟩ : ∃ ssrcRtx, s.rtx = some ssrcRtx := by
    rcases hrtx with haudio | hnone | hrtx
    · rw [hc.video] at haudio
      cases haudio
    · rw [hnone param (find_mem hfind).1] at hresend
      cases hresend
    · rw [hs]
      exact Option.ne_none_iff_exists'.mp hrtx
  have hget' : s.rtxCache.getCachedPacketBySeqNo pkt.seqNo = some pkt := by rw [hc.seqNo,hget]
  have hpoll : s.pollPacketResend false =
      .ok (some (pkt,s.seqNoRtx),{ s with resends,seqNoRtx := s.seqNoRtx+1 }) := by
    rw [StreamTx.pollPacketResend,if_neg Bool.false_ne_true,hresends]
    simp only [StreamTx.nextResend,hget,hc.nackable,if_true,hget']
  set header := { pkt.header with
    payloadType := ptRtx,ssrc := ssrcRtx,sequenceNumber := s.seqNoRtx % 2^16 } with hheader
  have hbits : header.payloadType ≤ 127 := hd.sevenBits param (find_mem hfind).1 _ (resend_mem hresend)
  obtain ⟨p,hwrite,hkind,hsame,hbody,haligned⟩ :=
    writePacket_ok exts ⟨some s.mid,none,s.rid⟩ (.resend pkt.seqNo) hbits hc.payloaded.fits
  refine ⟨p,?_,hkind.trans (congrArg _ hc.seqNo),by rw [hsame],haligned,?_⟩
  · rw [StreamTx.pollPacket,hpoll]
    simp only [Outcome.ok_bind,StreamTx.sendResend,hfind,hresend,hssrc]
    rw [← hheader,hwrite]
    rfl
  · rw [← hc.payloaded.ssrc]
    exact receive_resend hd hfind hresend hc.payloaded.number hsame hbody

theorem poll_queue (params : List PayloadParams) (exts : ExtensionMap) (now : ℕ) {overCap : Bool}
    (hnone : overCap = true ∨ s.resends = []) :
    s.pollPacket params exts now overCap = ({ s with resends := [] } : StreamTx).sendRegular params exts now := by
  have hpoll : s.pollPacketResend overCap = .ok (none,{ s with resends := [] }) := by
    rw [StreamTx.pollPacketResend]
    by_cases hcap : overCap = true
    · rw [if_pos hcap]
    · rw [if_neg hcap,hnone.resolve_left hcap,StreamTx.nextResend]
  rw [StreamTx.pollPacket,hpoll]
  rfl

variable {now clock waited : ℕ} {sending fresh : List RtpPacket}

theorem sendRegular_idle (h : s.sendQueue.Accounts clock waited [] fresh) :
    s.sendRegular params exts now = .ok (none,s) := by
  rw [StreamTx.sendRegular,h.peek_none]

/-- What becomes of a packet that leaves the queue. -/
def leaving (p : RtpPacket) (param : PayloadParams) (now : ℕ) : RtpPacket :=
  { p with timestamp := some now,nackable := p.nackable && param.resend.isSome }

theorem sendRegular_head (hd : Negotiated params) {p : RtpPacket}
    (h : s.sendQueue.Accounts clock waited (p :: sending) fresh) (hle : clock ≤ now)
    {param : PayloadParams} (hfind : params.find? (fun q => q.pt = p.header.payloadType) = some param)
    (hfits : p.payload.length ≤ rtpMtu) (ssrc : ℕ) :
    ∃ out q cache, s.sendRegular params exts now =
        .ok (some out,{ s with sendQueue := q,rtxCache := cache }) ∧
      q.Accounts now (if sending = [] then 0 else waited+p.wait now) sending fresh ∧
      q.lastEmitted = some now ∧
      (if (leaving p param now).nackable = true then
        s.rtxCache.cacheSentPacket (leaving p param now) now = .ok cache else cache = s.rtxCache) ∧
      out.kind = .regular ∧ out.body.length % srtpBlockSize = 0 ∧
      receive params ssrc out = some (p.header,p.payload) := by
  have hleave : (if param.resend.isSome = true then { p with timestamp := some now }
      else { p with timestamp := some now,nackable := false }) = leaving p param now := by
    rw [leaving]
    cases param.resend.isSome
    · rw [if_neg Bool.false_ne_true,Bool.and_false]
    · rw [if_pos rfl,Bool.and_true]
  obtain ⟨q,hpop,haccounts,hemitted⟩ := h.pop (leaving p param now) hle rfl rfl
  have hbits : p.header.payloadType ≤ 127 :=
    (find_mem hfind).2 ▸ hd.sevenBits param (find_mem hfind).1 _ param.pt_mem
  obtain ⟨out,hwrite,hkind,hheader,hbody,haligned⟩ :=
    writePacket_ok exts ⟨some s.mid,s.rid,none⟩ .regular hbits hfits
  have hsend : s.sendRegular params exts now =
      if (leaving p param now).nackable then
        (s.rtxCache.cacheSentPacket (leaving p param now) now).bind fun rtxCache =>
          .ok (some out,{ s with sendQueue := q,rtxCache })
      else .ok (some out,{ s with sendQueue := q }) := by
    rw [StreamTx.sendRegular,h.peek_some]
    simp only [hfind,hleave]
    rw [show (leaving p param now).header = p.header from rfl,
      show (leaving p param now).payload = p.payload from rfl,hwrite,Outcome.ok_bind,hpop]
    rfl
  have hreceive : receive params ssrc out = some (p.header,p.payload) :=
    hheader ▸ receive_regular hd (hheader ▸ hfind) hbody
  by_cases hnack : (leaving p param now).nackable = true
  · have hslot : p.payload.length/rtxCacheSizeQuantizer < rtxCacheQuantizeSlots :=
      Nat.div_lt_of_lt_mul (hfits.trans_lt (by decide))
    obtain ⟨cache,hcache⟩ : ∃ cache, s.rtxCache.cacheSentPacket (leaving p param now) now = .ok cache :=
      ⟨_,if_pos ⟨hnack,hslot⟩⟩
    refine ⟨out,q,cache,?_,haccounts,hemitted,by rw [if_pos hnack,hcache],hkind,haligned,hreceive⟩
    rw [hsend,if_pos hnack,hcache]
    rfl
  · refine ⟨out,q,s.rtxCache,?_,haccounts,hemitted,if_neg hnack ▸ rfl,hkind,haligned,hreceive⟩
    rw [hsend,if_neg hnack]

end Poll

end AnyKvm.Streams
