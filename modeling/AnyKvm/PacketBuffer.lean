import AnyKvm.EvictingBuffer
import AnyKvm.H264
import Mathlib.Data.List.ReduceOption

/-! The buffer that an outgoing packet is written to: the header with its extensions, and behind
it the body, padded to whole blocks.  Of the header it is only how long it is that matters. -/
namespace AnyKvm.Streams
open H264 (srtpBlockSize rtpMtu)

inductive Extension
  | absoluteSendTime
  | audioLevel
  | transmissionTimeOffset
  | videoOrientation
  | transportSequenceNumber
  | playoutDelay
  | videoContentType
  | videoTiming
  | rtpStreamId
  | repairedRtpStreamId
  | rtpMid
  | frameMarking
  | colorSpace
  deriving DecidableEq, Repr

inductive ExtensionsForm
  | oneByte
  | twoByte
  deriving DecidableEq, Repr

def maxIdOneByteForm : ℕ := 14

def maxId : ℕ := 16

/-- What the array of an id holds before the blanks that fill it. -/
structure StrId (size : ℕ) where
  text : Bytes
  nonempty : text ≠ []
  bounded : text.length ≤ size
  deriving DecidableEq, Repr

abbrev Mid := StrId 16

abbrev Rid := StrId 8

/-- The ids among the extension values of a packet.  The time and the number of the transport are
set whenever a packet goes out, and the agent writes its samples without any other value. -/
structure ExtensionValues where
  mid : Option Mid
  rid : Option Rid
  ridRepair : Option Rid
  deriving DecidableEq, Repr

/-- The extension under each id, from 1 on. -/
structure ExtensionMap where
  entries : List (Option Extension)
  length : entries.length = maxId
  deriving DecidableEq, Repr

/-- How many bytes the value takes, if there is one. -/
def Extension.valueLen (ev : ExtensionValues) : Extension → Option ℕ
  | absoluteSendTime => some 3
  | transportSequenceNumber => some 2
  | rtpStreamId => ev.rid.map (·.text.length)
  | repairedRtpStreamId => ev.ridRepair.map (·.text.length)
  | rtpMid => ev.mid.map (·.text.length)
  | audioLevel | transmissionTimeOffset | videoOrientation | playoutDelay | videoContentType
  | videoTiming | frameMarking | colorSpace => none

/-- How many bytes stand before a value: its id and its length. -/
def ExtensionsForm.prefixLen : ExtensionsForm → ℕ
  | oneByte => 1
  | twoByte => 2

/-- One pass of the loop of `ExtensionMap::write_to`, when `len` bytes of the buffer are used.
The slices and the two assertions may panic. -/
def Extension.writeTo (form : ExtensionsForm) (ev : ExtensionValues) (room len : ℕ) (ext : Extension) :
    Panicking ℕ :=
  if room < len+form.prefixLen then .panicked
  else
    match ext.valueLen ev with
    | none => .ok len
    | some n =>
      if room < len+form.prefixLen+n ∨ form = .oneByte ∧ (16 < n ∨ n = 0) then .panicked
      else .ok (len+form.prefixLen+n)

namespace ExtensionMap

/-- The mappings that are offered. -/
def standard : ExtensionMap where
  entries := [some .audioLevel,some .absoluteSendTime,some .transportSequenceNumber,some .rtpMid,none,none,
    none,none,none,some .rtpStreamId,some .repairedRtpStreamId,none,some .videoOrientation,none,none,none]
  length := rfl

def form (exts : ExtensionMap) : ExtensionsForm :=
  if (exts.entries.drop maxIdOneByteForm).any (·.isSome) then .twoByte else .oneByte

def writeTo (exts : ExtensionMap) (ev : ExtensionValues) (room : ℕ) : Panicking ℕ :=
  exts.entries.reduceOption.foldlM (fun len ext => ext.writeTo exts.form ev room len) 0

end ExtensionMap

/-- `RtpHeader::write_to`: how many of the `size` bytes the header takes. -/
def RtpHeader.writeTo (header : RtpHeader) (exts : ExtensionMap) (ev : ExtensionValues) (size : ℕ) :
    Panicking ℕ :=
  if size < 16 ∨ 127 < header.payloadType then .panicked
  else do
    let extLen ← exts.writeTo ev (size-16)
    let pad := 4-extLen % 4
    if pad < 4 then
      if size-16 < extLen+pad then .panicked else .ok (16+(extLen+pad))
    else .ok (16+extLen)

/-- `RtpHeader::pad_packet` with `do_pad`: the padding bit, and the body with its padding. -/
def padPacket (headerLen : ℕ) (body : Bytes) (blockSize : ℕ) : Panicking (Bool × Bytes) :=
  let padLen := blockSize-body.length % blockSize
  if padLen = blockSize then .ok (false,body)
  else if 255 < padLen ∨ datagramMaxPacketSize < headerLen+body.length+padLen then .panicked
  else .ok (true,body ++ List.replicate (padLen-1) 0 ++ [UInt8.ofNat padLen])

def unpadPayload (buf : Bytes) : Option Bytes :=
  match buf.getLast? with
  | none => some buf
  | some padLen =>
    if padLen.toNat ≤ buf.length then some (buf.take (buf.length-padLen.toNat)) else none

/-- `RtpHeader::write_original_sequence_number`. -/
def writeOriginalSequenceNumber (seqNo : ℕ) : Bytes :=
  [UInt8.ofNat (seqNo % 2^16/2^8),UInt8.ofNat (seqNo % 2^8)]

/-- `RtpHeader::read_original_sequence_number`: the number, and how many bytes it takes. -/
def readOriginalSequenceNumber : Bytes → ℕ × ℕ
  | hi :: lo :: _ => (hi.toNat*2^8+lo.toNat,2)
  | _ => (0,0)

inductive NextPacketKind
  | regular
  | resend (origSeqNo : ℕ)
  deriving DecidableEq, Repr

/-- A packet as it goes out: its header with the padding bit, and what follows the header. -/
structure SentPacket where
  kind : NextPacketKind
  header : RtpHeader
  hasPadding : Bool
  body : Bytes
  deriving DecidableEq, Repr

/-- What stands in front of the payload. -/
def NextPacketKind.original : NextPacketKind → Bytes
  | regular => []
  | resend origSeqNo => writeOriginalSequenceNumber origSeqNo

/-- The part of `poll_packet` that writes a packet to the buffer. -/
def writePacket (exts : ExtensionMap) (ev : ExtensionValues) (kind : NextPacketKind)
    (header : RtpHeader) (payload : Bytes) : Panicking SentPacket := do
  let headerLen ← header.writeTo exts ev datagramMaxPacketSize
  let body := kind.original ++ payload
  if headerLen % 4 ≠ 0 ∨ datagramMaxPacketSize < headerLen+body.length then .panicked
  else do
    let (hasPadding,body) ← padPacket headerLen body srtpBlockSize
    .ok { kind,header,hasPadding,body }

/-- The body as it was before it was padded. -/
def SentPacket.unpadded (p : SentPacket) : Option Bytes :=
  if p.hasPadding then unpadPayload p.body else some p.body

section Header

variable (form : ExtensionsForm) (ev : ExtensionValues) {room len : ℕ}

theorem Extension.valueLen_bounds {ext : Extension} {n : ℕ} (h : ext.valueLen ev = some n) :
    0 < n ∧ n ≤ 16 := by
  have hid : ∀ {size : ℕ} {id : Option (StrId size)}, size ≤ 16 → id.map (·.text.length) = some n →
      0 < n ∧ n ≤ 16 := by
    intro size id hsize hmap
    obtain ⟨x,-,rfl⟩ := Option.map_eq_some_iff.mp hmap
    exact ⟨List.length_pos_iff.mpr x.nonempty,x.bounded.trans hsize⟩
  cases ext with
  | absoluteSendTime | transportSequenceNumber =>
    cases h
    decide
  | rtpStreamId | repairedRtpStreamId | rtpMid => exact hid (by decide) h
  | _ => cases h

theorem Extension.writeTo_ok (ext : Extension) (hroom : len+18 ≤ room) :
    ∃ len' ≤ len+18, ext.writeTo form ev room len = .ok len' := by
  have hprefix : form.prefixLen ≤ 2 := by
    cases form
    · exact Nat.le_succ 1
    · exact le_rfl
  rw [writeTo,if_neg (by omega)]
  rcases hvalue : ext.valueLen ev with - | n
  · exact ⟨len,Nat.le_add_right _ _,rfl⟩
  · obtain ⟨hpos,hle⟩ := valueLen_bounds ev hvalue
    exact ⟨len+form.prefixLen+n,by omega,if_neg (by omega)⟩

theorem foldlM_writeTo_ok (exts : List Extension) (hroom : len+18*exts.length ≤ room) :
    ∃ len' ≤ len+18*exts.length,
      (exts.foldlM (fun len ext => ext.writeTo form ev room len) len : Panicking ℕ) = .ok len' := by
  induction exts generalizing len with
  | nil => exact ⟨len,le_rfl,rfl⟩
  | cons ext exts ih =>
    rw [List.length_cons] at hroom ⊢
    obtain ⟨mid,hmid,hext⟩ := ext.writeTo_ok form ev (show len+18 ≤ room by omega)
    obtain ⟨len',hlen',hexts⟩ := ih (show mid+18*exts.length ≤ room by omega)
    refine ⟨len',by omega,?_⟩
    rw [List.foldlM_cons,hext,Outcome.ok_bind,hexts]

def maxHeaderLen : ℕ := 16+18*maxId

theorem RtpHeader.writeTo_ok {header : RtpHeader} (exts : ExtensionMap)
    (hbits : header.payloadType ≤ 127) :
    ∃ n ≤ maxHeaderLen, n % 4 = 0 ∧ header.writeTo exts ev datagramMaxPacketSize = .ok n := by
  have hcount : exts.entries.reduceOption.length ≤ 16 :=
    (List.reduceOption_length_le _).trans exts.length.le
  obtain ⟨extLen,hle,hexts⟩ := foldlM_writeTo_ok exts.form ev
    exts.entries.reduceOption (show 0+18*exts.entries.reduceOption.length ≤ datagramMaxPacketSize-16 by
      simp only [datagramMaxPacketSize]
      omega)
  have hwrite : exts.writeTo ev (datagramMaxPacketSize-16) = .ok extLen := hexts
  rw [writeTo,if_neg (by simp only [datagramMaxPacketSize]; omega),hwrite,Outcome.ok_bind]
  have hmax : maxHeaderLen = 304 := rfl
  have hsize : datagramMaxPacketSize = 2000 := rfl
  by_cases hpad : 4-extLen % 4 < 4
  · refine ⟨16+(extLen+(4-extLen % 4)),by omega,by omega,?_⟩
    rw [if_pos hpad,if_neg (by omega)]
  · exact ⟨16+extLen,by omega,by omega,if_neg hpad⟩

/-- The send time, the number of the transport and a mid of one character, and three zeros. -/
example : RtpHeader.writeTo ⟨true,96,7,90,5⟩ .standard ⟨some ⟨[48],by decide,by decide⟩,none,none⟩ 2000 =
    .ok 28 := by
  decide

end Header

section Padding

variable {body : Bytes} {headerLen blockSize : ℕ}

/-- The receiver takes off what the sender put on, and the body is whole blocks. -/
theorem padPacket_ok (hpos : 0 < blockSize) (hsmall : blockSize < 256)
    (hroom : headerLen+body.length+blockSize ≤ datagramMaxPacketSize) :
    ∃ hasPadding padded, padPacket headerLen body blockSize = .ok (hasPadding,padded) ∧
      (if hasPadding then unpadPayload padded else some padded) = some body ∧
      padded.length % blockSize = 0 := by
  have hmod := Nat.mod_lt body.length hpos
  rw [padPacket]
  by_cases hfull : blockSize-body.length % blockSize = blockSize
  · refine ⟨false,body,if_pos hfull,rfl,by omega⟩
  · set padLen := blockSize-body.length % blockSize with hpad
    have hlen : (UInt8.ofNat padLen).toNat = padLen := UInt8.toNat_ofNat_of_lt' (show _ < 256 by omega)
    refine ⟨true,body ++ List.replicate (padLen-1) 0 ++ [UInt8.ofNat padLen],?_,?_,?_⟩
    · rw [if_neg hfull,if_neg (by omega)]
    · rw [if_pos rfl,unpadPayload,List.getLast?_append]
      simp only [List.getLast?_singleton,Option.some_or,hlen,List.length_append,List.length_replicate,
        List.length_singleton]
      rw [if_pos (by omega),show body.length+(padLen-1)+1-padLen = body.length by omega,
        List.append_assoc,List.take_left]
    · simp only [List.length_append,List.length_replicate,List.length_singleton]
      have hsum : body.length+(padLen-1)+1 = blockSize*(body.length/blockSize+1) := by
        have := Nat.div_add_mod body.length blockSize
        rw [Nat.mul_add,Nat.mul_one]
        omega
      rw [hsum,Nat.mul_mod_right]

theorem read_writeOriginalSequenceNumber (seqNo : ℕ) (payload : Bytes) :
    readOriginalSequenceNumber (writeOriginalSequenceNumber seqNo ++ payload) = (seqNo % 2^16,2) := by
  have hhi : (UInt8.ofNat (seqNo % 2^16/2^8)).toNat = seqNo % 2^16/2^8 :=
    UInt8.toNat_ofNat_of_lt' (show _ < 256 by omega)
  have hlo : (UInt8.ofNat (seqNo % 2^8)).toNat = seqNo % 2^8 := UInt8.toNat_ofNat_of_lt' (show _ < 256 by omega)
  simp only [writeOriginalSequenceNumber,List.cons_append,readOriginalSequenceNumber,hhi,hlo]
  rw [Prod.mk.injEq]
  exact ⟨by omega,rfl⟩

end Padding

/-- A payload of the payloader's size fits the buffer behind any header, sent first or again. -/
theorem writePacket_ok {header : RtpHeader} {payload : Bytes} (exts : ExtensionMap)
    (ev : ExtensionValues) (kind : NextPacketKind) (hbits : header.payloadType ≤ 127)
    (hfits : payload.length ≤ rtpMtu) :
    ∃ p, writePacket exts ev kind header payload = .ok p ∧ p.kind = kind ∧ p.header = header ∧
      p.unpadded = some (kind.original ++ payload) ∧ p.body.length % srtpBlockSize = 0 := by
  obtain ⟨headerLen,hle,hfour,hheader⟩ := RtpHeader.writeTo_ok ev exts hbits
  have horiginal : kind.original.length ≤ 2 := by
    cases kind
    · exact Nat.zero_le 2
    · exact le_rfl
  have hmax : maxHeaderLen = 304 := rfl
  have hsize : datagramMaxPacketSize = 2000 := rfl
  have hmtu : rtpMtu = 1120 := rfl
  have hblock : srtpBlockSize = 16 := rfl
  have hlen : headerLen+(kind.original ++ payload).length+srtpBlockSize ≤ datagramMaxPacketSize := by
    rw [List.length_append]
    omega
  obtain ⟨hasPadding,padded,hpad,hunpad,haligned⟩ :=
    padPacket_ok (show 0 < srtpBlockSize by decide) (by decide) hlen
  refine ⟨⟨kind,header,hasPadding,padded⟩,?_,rfl,rfl,hunpad,haligned⟩
  rw [writePacket,hheader,Outcome.ok_bind]
  dsimp only
  rw [if_neg (by omega),hpad]
  rfl

end AnyKvm.Streams
