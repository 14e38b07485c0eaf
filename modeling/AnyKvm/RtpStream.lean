import AnyKvm.PacketBuffer
import AnyKvm.SequenceNumbers
import AnyKvm.Transition
import Mathlib.Data.Nat.Bitwise

/-! An outgoing RTP stream: packets wait in the send queue, are sent in turn, and are cached so
that they can be sent once more, on the RTX stream, when a NACK asks for them. -/
namespace AnyKvm.Streams
open H264 (rtpMtu)

/-- What a negotiated payload type is sent as: itself, and its RTX payload type. -/
structure PayloadParams where
  pt : ℕ
  resend : Option ℕ
  deriving DecidableEq, Repr

def hasPt (params : List PayloadParams) (pt : ℕ) : Bool := params.any fun p => p.pt = pt

/-- A range of sequence numbers missing.  Both fields are of 16 bits. -/
structure NackEntry where
  pid : ℕ
  blp : ℕ
  deriving DecidableEq, Repr

/-- `NackEntryIterator`: the first number, and those that the bits name. -/
def NackEntry.missing (e : NackEntry) : List ℕ :=
  e.pid % 2^16 :: ((List.range 16).filter fun i => e.blp.testBit i).map fun i => (e.pid+(i+1)) % 2^16

def NackEntry.intoIter (e : NackEntry) (seqNo : ℕ) : List ℕ :=
  e.missing.map (Rtp.extendU16 (some seqNo))

structure Resend where
  seqNo : ℕ
  queuedAt : ℕ
  payloadSize : ℕ
  deriving DecidableEq, Repr

structure StreamTx where
  ssrc : ℕ
  rtx : Option ℕ
  mid : Mid
  rid : Option Rid
  isAudio : Bool
  seqNo : ℕ
  seqNoRtx : ℕ
  sendQueue : SendQueue
  resends : List Resend
  rtxCache : RtxCache
  deriving DecidableEq, Repr

def defaultRtxCacheDuration : ℕ := 3000000000

def rtxCachePackets : ℕ := 2000

namespace StreamTx

/-- The two sequence numbers start at random 16 bits. -/
def new (ssrc : ℕ) (rtx : Option ℕ) (mid : Mid) (rid : Option Rid) (isAudio : Bool)
    (seqNo seqNoRtx : ℕ) : StreamTx :=
  { ssrc,rtx,mid,rid,isAudio,seqNo,seqNoRtx,sendQueue := {},resends := [],
    rtxCache := .new rtxCachePackets defaultRtxCacheDuration }

/-- `next_seq_no` and `write_rtp`, as the payloader calls them for each chunk of a sample. -/
def writeRtp (s : StreamTx) (pt time : ℕ) (marker : Bool) (payload : Bytes) : StreamTx :=
  let header : RtpHeader :=
    { marker,payloadType := pt,sequenceNumber := s.seqNo % 2^16,timestamp := time,ssrc := s.ssrc }
  let packet : RtpPacket :=
    { seqNo := s.seqNo,header,payload,timestamp := none,nackable := !s.isAudio }
  { s with seqNo := s.seqNo+1,sendQueue := s.sendQueue.push packet }

def handleTimeout (s : StreamTx) (now : ℕ) : Panicking StreamTx := do
  let sendQueue ← s.sendQueue.handleTimeout now
  .ok { s with sendQueue }

/-- The loop of `poll_packet_resend`: resends whose packet is gone from the cache are passed. -/
def nextResend (cache : RtxCache) : List Resend → Option RtpPacket × List Resend
  | [] => (none,[])
  | resend :: resends =>
    match cache.getCachedPacketBySeqNo resend.seqNo with
    | none => nextResend cache resends
    | some pkt => (some pkt,resends)

/-- Whether the ratio of bytes sent again has hit the cap of 15% is asked of the statistics. -/
def pollPacketResend (s : StreamTx) (overCap : Bool) :
    Panicking (Option (RtpPacket × ℕ) × StreamTx) :=
  if overCap then .ok (none,{ s with resends := [] })
  else
    match nextResend s.rtxCache s.resends with
    | (none,resends) => .ok (none,{ s with resends })
    | (some pkt,resends) =>
      if pkt.nackable then
        match s.rtxCache.getCachedPacketBySeqNo pkt.seqNo with
        | none => .panicked
        | some pkt => .ok (some (pkt,s.seqNoRtx),{ s with resends,seqNoRtx := s.seqNoRtx+1 })
      else .panicked

variable (params : List PayloadParams) (exts : ExtensionMap)

/-- The rest of `poll_packet` when there is a packet to resend. -/
def sendResend (s : StreamTx) (pkt : RtpPacket) (seqNo : ℕ) :
    Panicking (Option SentPacket × StreamTx) :=
  match params.find? fun p => p.pt = pkt.header.payloadType with
  | none => .ok (none,s)
  | some param =>
    match param.resend,s.rtx with
    | some ptRtx,some ssrcRtx => do
      let header := { pkt.header with
        payloadType := ptRtx,ssrc := ssrcRtx,sequenceNumber := seqNo % 2^16 }
      let sent ← writePacket exts ⟨some s.mid,none,s.rid⟩ (.resend pkt.seqNo) header pkt.payload
      .ok (some sent,s)
    | _,_ => .panicked

/-- `poll_packet_regular` and the rest of `poll_packet`. -/
def sendRegular (s : StreamTx) (now : ℕ) : Panicking (Option SentPacket × StreamTx) :=
  match s.sendQueue.peek with
  | none => .ok (none,s)
  | some pkt =>
    let pkt := { pkt with timestamp := some now }
    match params.find? fun p => p.pt = pkt.header.payloadType with
    | none => do
      -- get rid of this packet we can't send
      let (_,sendQueue) ← (s.sendQueue.setHead pkt).pop now
      .ok (none,{ s with sendQueue })
    | some param => do
      -- without an RTX payload type the packet is not nackable
      let pkt := if param.resend.isSome then pkt else { pkt with nackable := false }
      let sent ← writePacket exts ⟨some s.mid,s.rid,none⟩ .regular pkt.header pkt.payload
      let (popped,sendQueue) ← (s.sendQueue.setHead pkt).pop now
      match popped with
      | none => .panicked
      | some pkt =>
        if pkt.nackable then do
          let rtxCache ← s.rtxCache.cacheSentPacket pkt now
          .ok (some sent,{ s with sendQueue,rtxCache })
        else .ok (some sent,{ s with sendQueue })

def pollPacket (s : StreamTx) (now : ℕ) (overCap : Bool) :
    Panicking (Option SentPacket × StreamTx) := do
  let (next,s) ← s.pollPacketResend overCap
  match next with
  | some (pkt,seqNo) => s.sendResend params exts pkt seqNo
  | none => s.sendRegular params exts now

def handleNack (s : StreamTx) (entries : List NackEntry) (now : ℕ) : StreamTx :=
  match s.rtxCache.lastCachedSeqNo with
  | none => s
  | some last =>
    let resends := (entries.flatMap (·.intoIter last)).filterMap fun seqNo =>
      (s.rtxCache.getCachedPacketBySeqNo seqNo).map fun packet =>
        { seqNo,queuedAt := now,payloadSize := packet.payload.length }
    { s with resends := s.resends ++ resends }

end StreamTx

def QueuePriority.rank : QueuePriority → ℕ
  | media => 0
  | padding => 1
  | empty => 2

namespace QueueSnapshot

def earlier : Option ℕ → Option ℕ → Option ℕ
  | none,b => b
  | a,none => a
  | some a,some b => some (min a b)

def merge (s other : QueueSnapshot) : QueueSnapshot :=
  { createdAt := min s.createdAt other.createdAt
    size := s.size+other.size
    packetCount := s.packetCount+other.packetCount
    totalQueueTimeOrigin := s.totalQueueTimeOrigin+other.totalQueueTimeOrigin
    lastEmitted := max s.lastEmitted other.lastEmitted
    firstUnsent := earlier s.firstUnsent other.firstUnsent
    priority := if s.priority.rank ≤ other.priority.rank then s.priority else other.priority }

def addResend (now : ℕ) (s : QueueSnapshot) (r : Resend) : QueueSnapshot :=
  { s with
    totalQueueTimeOrigin := s.totalQueueTimeOrigin+(now-r.queuedAt)
    size := s.size+r.payloadSize
    packetCount := s.packetCount+1
    firstUnsent := some ((s.firstUnsent.map (min · r.queuedAt)).getD r.queuedAt) }

def updatePriority (s : QueueSnapshot) (priority : QueuePriority) : QueueSnapshot :=
  { s with priority := if 0 < s.packetCount then priority else .empty }

end QueueSnapshot

namespace StreamTx

def queueStateResend (s : StreamTx) (now : ℕ) : Option QueueSnapshot :=
  if s.resends = [] then none
  else
    let snapshot := s.resends.foldl (QueueSnapshot.addResend now) ⟨now,0,0,0,none,none,.empty⟩
    some (snapshot.updatePriority .media)

def queueState (s : StreamTx) (now : ℕ) : Panicking (QueueSnapshot × StreamTx) := do
  let (snapshot,sendQueue) ← s.sendQueue.snapshot now
  let snapshot := ((s.queueStateResend now).map snapshot.merge).getD snapshot
  .ok (snapshot,{ s with sendQueue })

end StreamTx

/-- What the other end makes of a packet: `handle_rtp` of a session, with `un_rtx` of the stream
that has this SSRC, from the point where the packet is decrypted. -/
def receive (params : List PayloadParams) (ssrc : ℕ) (p : SentPacket) : Option (RtpHeader × Bytes) :=
  match params.find? fun q => q.pt = p.header.payloadType ∨ q.resend = some p.header.payloadType with
  | none => none
  | some q =>
    p.unpadded.bind fun data =>
      if q.pt ≠ p.header.payloadType then
        if data = [] then none
        else
          let (orig,n) := readOriginalSequenceNumber data
          some ({ p.header with sequenceNumber := orig,ssrc,payloadType := q.pt },data.drop n)
      else some (p.header,data)

/-- A stream with the clock of its session, and what has gone in and out of it. -/
structure State where
  stream : StreamTx
  clock : ℕ := 0
  written : List RtpPacket := []
  /-- Packets with the time that they were sent at. -/
  sent : List (SentPacket × ℕ) := []
  /-- What the packets waited that were sent since no packet with a time was left. -/
  waited : ℕ := 0
  deriving DecidableEq, Repr

inductive Action
  | write (pt time : ℕ) (marker : Bool) (payload : Bytes)
  | timeout (now : ℕ)
  | poll (now : ℕ) (overCap : Bool)
  | nack (now : ℕ) (entries : List NackEntry)
  | queueState (now : ℕ)
  deriving DecidableEq, Repr

def Action.time : Action → Option ℕ
  | write .. => none
  | timeout now | poll now _ | nack now _ | queueState now => some now

/-- How much longer the head of the queue has waited, when it is the one to leave. -/
def SendQueue.waitedAfter (q : SendQueue) (waited now : ℕ) : ℕ :=
  match q.queue.filter (·.timestamp.isSome) with
  | p :: _ :: _ => waited+p.wait now
  | _ => 0

def perform (params : List PayloadParams) (exts : ExtensionMap) (s : State) : Action → Panicking State
  | .write pt time marker payload =>
    let stream := s.stream.writeRtp pt time marker payload
    .ok { s with stream,written := s.written ++ stream.sendQueue.queue.getLast?.toList }
  | .timeout now => do
    let stream ← s.stream.handleTimeout now
    .ok { s with stream,clock := now }
  | .poll now overCap => do
    let (sent,stream) ← s.stream.pollPacket params exts now overCap
    let waited :=
      if stream.sendQueue.queue.length < s.stream.sendQueue.queue.length then
        s.stream.sendQueue.waitedAfter s.waited now
      else s.waited
    .ok { s with stream,clock := now,sent := s.sent ++ sent.toList.map (·,now),waited }
  | .nack now entries => .ok { s with stream := s.stream.handleNack entries now,clock := now }
  | .queueState now => do
    let (_,stream) ← s.stream.queueState now
    .ok { s with stream,clock := now }

/-- What the callers see to: time does not go back, a payload is one that the payloader cut, and
its payload type was negotiated. -/
def Allowed (params : List PayloadParams) (s : State) : Action → Prop
  | .write pt _ _ payload => hasPt params pt = true ∧ payload.length ≤ rtpMtu
  | .timeout now | .poll now _ | .nack now _ | .queueState now => s.clock ≤ now

instance (params : List PayloadParams) (s : State) (a : Action) : Decidable (Allowed params s a) :=
  match a with
  | .write .. => inferInstanceAs (Decidable (_ ∧ _))
  | .timeout _ | .poll .. | .nack .. | .queueState _ => inferInstanceAs (Decidable (_ ≤ _))

def step (params : List PayloadParams) (exts : ExtensionMap) (s : State) (a : Action) : Option State :=
  if Allowed params s a then
    match perform params exts s a with
    | .ok s' => some s'
    | _ => none
  else none

end AnyKvm.Streams
