import AnyKvm.AnnexB
import AnyKvm.StunClient
import Mathlib.Data.BitVec

/-! `packet/h264.rs`: access units become RTP payloads, and RTP payloads become access units again. -/
namespace AnyKvm
namespace H264

open AnnexB
open Outcome (index slice)
open Turn (u16ToBeBytes u32ToBeBytes)

def stapaNaluType : UInt8 := 24
def fuaNaluType : UInt8 := 28
def idrNaluType : UInt8 := 5
def spsNaluType : UInt8 := 7
def ppsNaluType : UInt8 := 8
def audNaluType : UInt8 := 9
def fillerNaluType : UInt8 := 12
def fuaHeaderSize : ℕ := 2
def stapaHeaderSize : ℕ := 1
def stapaNaluLengthSize : ℕ := 2
def naluTypeBitmask : UInt8 := 0x1F
def naluRefIdcBitmask : UInt8 := 0x60
def fuEndBitmask : UInt8 := 0x40
def outputStapAheader : UInt8 := 0x78
def annexbNalustartCode : Bytes := [0,0,0,1]

def datagramMtu : ℕ := 1150

def srtpOverhead : ℕ := 16

def srtpBlockSize : ℕ := 16

/-- What is left of a datagram for a payload, in whole blocks. -/
def rtpMtu : ℕ := datagramMtu - srtpOverhead - (datagramMtu - srtpOverhead) % srtpBlockSize

structure Packetizer where
  spsNalu : Option Bytes := none
  ppsNalu : Option Bytes := none
  deriving DecidableEq

def nextIndLoop (start : ℕ) : Bytes → ℕ → ℕ → Option (ℕ × ℕ)
  | [], _, _ => none
  | b :: bs, i, zeroCount =>
    if b = 0 then nextIndLoop start bs (i + 1) (zeroCount + 1)
    else if b = 1 ∧ 2 ≤ zeroCount then some (start + i - zeroCount,zeroCount + 1)
    else nextIndLoop start bs (i + 1) 0

/-- The place and the length of the next start code. -/
def nextInd (nalu : Bytes) (start : ℕ) : Option (ℕ × ℕ) := nextIndLoop start (nalu.drop start) 0 0

/-- The fragments of so many bytes; the first pass has the whole of the data before it. -/
def fuaLoop (naluRefIdc naluType : UInt8) (maxFragmentSize naluDataLength : ℕ) : ℕ → Bytes → List Bytes
  | 0, _ => []
  | fuel + 1, naluData =>
    if naluData.length = 0 then []
    else
      let currentFragmentSize := min maxFragmentSize naluData.length
      let b₀ := fuaNaluType ||| naluRefIdc
      let b₁ :=
        if naluData.length = naluDataLength then naluType ||| 0x80
        else if naluData.length - currentFragmentSize = 0 then naluType ||| 0x40
        else naluType
      (b₀ :: b₁ :: naluData.take currentFragmentSize) ::
        fuaLoop naluRefIdc naluType maxFragmentSize naluDataLength fuel (naluData.drop currentFragmentSize)

def fragments (mtu : ℕ) (nalu : Bytes) (naluRefIdc naluType : UInt8) : List Bytes :=
  if nalu.length ≤ mtu then [nalu]
  else
    let maxFragmentSize := mtu - fuaHeaderSize
    let naluData := nalu.drop 1
    if min maxFragmentSize naluData.length = 0 then []
    else fuaLoop naluRefIdc naluType maxFragmentSize naluData.length naluData.length naluData

def stapANalu (spsNalu ppsNalu : Bytes) : Bytes :=
  outputStapAheader :: (u16ToBeBytes (UInt16.ofNat spsNalu.length) ++ spsNalu ++
    u16ToBeBytes (UInt16.ofNat ppsNalu.length) ++ ppsNalu)

namespace Packetizer
variable (p : Packetizer)

def emit (mtu : ℕ) : Bytes → Packetizer × List Bytes
  | [] => (p,[])
  | header :: rest =>
    let nalu := header :: rest
    let naluType := header &&& naluTypeBitmask
    let naluRefIdc := header &&& naluRefIdcBitmask
    if naluType = audNaluType ∨ naluType = fillerNaluType then (p,[])
    else if naluType = spsNaluType then ({ p with spsNalu := some nalu },[])
    else if naluType = ppsNaluType then ({ p with ppsNalu := some nalu },[])
    else
      match p.spsNalu, p.ppsNalu with
      | some spsNalu, some ppsNalu =>
        ({},(if (stapANalu spsNalu ppsNalu).length ≤ mtu then [stapANalu spsNalu ppsNalu] else []) ++
          fragments mtu nalu naluRefIdc naluType)
      | _, _ => (p,fragments mtu nalu naluRefIdc naluType)

/-- Every pass moves on behind the next start code. -/
def packetizeLoop (mtu : ℕ) (payload : Bytes) : ℕ → ℕ → Packetizer → Packetizer × List Bytes
  | 0, _, p => (p,[])
  | fuel + 1, prevStart, p =>
    match nextInd payload prevStart with
    | some (nextIndStart,nextIndLen) =>
      let r := p.emit mtu ((payload.drop prevStart).take (nextIndStart - prevStart))
      let rest := packetizeLoop mtu payload fuel (nextIndStart + nextIndLen) r.1
      (rest.1,r.2 ++ rest.2)
    | none => p.emit mtu (payload.drop prevStart)

def packetize (mtu : ℕ) (payload : Bytes) : Packetizer × List Bytes :=
  if payload = [] ∨ mtu = 0 then (p,[])
  else
    match nextInd payload 0 with
    | none => p.emit mtu payload
    | some (nextIndStart,nextIndLen) => packetizeLoop mtu payload payload.length (nextIndStart + nextIndLen) p

def packetizeAll (mtu : ℕ) : Packetizer → List Bytes → Packetizer × List Bytes
  | p, [] => (p,[])
  | p, payload :: payloads =>
    let r := p.packetize mtu payload
    let rest := packetizeAll mtu r.1 payloads
    (rest.1,r.2 ++ rest.2)

end Packetizer

inductive PacketError
  | errShortPacket
  | stapASizeLargerThanBuffer (size left : ℕ)
  | naluTypeIsNotHandled (naluType : UInt8)
  deriving DecidableEq, Repr

structure Depacketizer where
  isAvc : Bool := false
  fuaBuffer : Option Bytes := none
  deriving DecidableEq

/-- What has been taken out of the packets so far: the sample, and whether it is a key frame once that is known. -/
structure Sample where
  out : Bytes := []
  isKeyframe : Option Bool := none
  deriving DecidableEq

def Sample.add (s : Sample) (isAvc : Bool) (naluType : UInt8) (nalu : Bytes) : Sample where
  out := s.out ++ (if isAvc then u32ToBeBytes (UInt32.ofNat nalu.length) else annexbNalustartCode) ++ nalu
  isKeyframe := some (decide (naluType = idrNaluType) || s.isKeyframe.getD false)

/-- The units of a STAP-A packet. The first byte of a unit is read even if the unit is empty. -/
def stapaLoop (isAvc : Bool) (packet : Bytes) : ℕ → ℕ → Sample → Outcome PacketError Sample
  | 0, _, s => .ok s
  | fuel + 1, currOffset, s =>
    if currOffset + 1 < packet.length then do
      let hi ← index packet currOffset
      let lo ← index packet (currOffset + 1)
      let naluSize := hi.toNat <<< 8 ||| lo.toNat
      let currOffset := currOffset + stapaNaluLengthSize
      if packet.length < currOffset + naluSize then
        .err (.stapASizeLargerThanBuffer naluSize (packet.length - currOffset))
      else do
        let b₀ ← index packet currOffset
        let nalu ← slice packet currOffset (currOffset + naluSize)
        stapaLoop isAvc packet fuel (currOffset + naluSize) (s.add isAvc (b₀ &&& naluTypeBitmask) nalu)
    else .ok s

namespace Depacketizer
variable (d : Depacketizer)

def depacketize (packet : Bytes) (s : Sample) : Outcome PacketError (Depacketizer × Sample) :=
  match packet with
  | [] => .err .errShortPacket
  | b₀ :: rest =>
    let naluType := b₀ &&& naluTypeBitmask
    if 1 ≤ naluType ∧ naluType ≤ 23 then .ok (d,s.add d.isAvc naluType packet)
    else if naluType = stapaNaluType then do
      let s ← stapaLoop d.isAvc packet packet.length stapaHeaderSize s
      .ok (d,s)
    else if naluType = fuaNaluType then
      match rest with
      | [] => .err .errShortPacket
      | b₁ :: fragment =>
        let fuaBuffer := d.fuaBuffer.getD [] ++ fragment
        if b₁ &&& fuEndBitmask ≠ 0 then
          let naluRefIdc := b₀ &&& naluRefIdcBitmask
          let fragmentedNaluType := b₁ &&& naluTypeBitmask
          .ok ({ d with fuaBuffer := none },
            s.add d.isAvc fragmentedNaluType ((naluRefIdc ||| fragmentedNaluType) :: fuaBuffer))
        else .ok ({ d with fuaBuffer := some fuaBuffer },s)
    else .err (.naluTypeIsNotHandled naluType)

/-- The packets in the order in which they were sent. -/
def depacketizeAll : Depacketizer → List Bytes → Sample → Outcome PacketError (Depacketizer × Sample)
  | d, [], s => .ok (d,s)
  | d, packet :: packets, s => do
    let r ← d.depacketize packet s
    depacketizeAll r.1 packets r.2

end Depacketizer

variable {mtu start : ℕ} {p : Packetizer} {packet payload : Bytes}

theorem fuaLoop_length (naluRefIdc naluType : UInt8) (maxFragmentSize naluDataLength fuel : ℕ) (naluData : Bytes)
    (h : packet ∈ fuaLoop naluRefIdc naluType maxFragmentSize naluDataLength fuel naluData) :
    packet.length ≤ maxFragmentSize + 2 := by
  induction fuel generalizing naluData with
  | zero => cases h
  | succ fuel ih =>
    unfold fuaLoop at h
    split at h
    · cases h
    · rcases List.mem_cons.mp h with rfl | hmem
      · rw [List.length_cons,List.length_cons,List.length_take]
        omega
      · exact ih _ hmem

theorem fragments_length {nalu : Bytes} {naluRefIdc naluType : UInt8}
    (h : packet ∈ fragments mtu nalu naluRefIdc naluType) : packet.length ≤ mtu := by
  unfold fragments at h
  split at h
  next hfits =>
    rw [List.mem_singleton.mp h]
    exact hfits
  next =>
    dsimp only at h
    split at h
    · cases h
    next hpos =>
      have hlength := fuaLoop_length _ _ _ _ _ _ h
      unfold fuaHeaderSize at hlength hpos
      omega

theorem emit_length {nalu : Bytes} (h : packet ∈ (p.emit mtu nalu).2) : packet.length ≤ mtu := by
  cases nalu with
  | nil => cases h
  | cons header rest =>
    unfold Packetizer.emit at h
    dsimp only at h
    split_ifs at h
    · cases h
    · cases h
    · cases h
    · split at h
      · rcases List.mem_append.mp h with hstap | hfragment
        · split at hstap
          next hfits =>
            rw [List.mem_singleton.mp hstap]
            exact hfits
          · cases hstap
        · exact fragments_length hfragment
      · exact fragments_length h

theorem packetizeLoop_length (fuel prevStart : ℕ) (p : Packetizer)
    (h : packet ∈ (p.packetizeLoop mtu payload fuel prevStart).2) : packet.length ≤ mtu := by
  induction fuel generalizing prevStart p with
  | zero => cases h
  | succ fuel ih =>
    unfold Packetizer.packetizeLoop at h
    split at h
    · rcases List.mem_append.mp h with hhere | hrest
      · exact emit_length hhere
      · exact ih _ _ hrest
    · exact emit_length h

theorem packetize_length (h : packet ∈ (p.packetize mtu payload).2) : packet.length ≤ mtu := by
  unfold Packetizer.packetize at h
  split at h
  · cases h
  · split at h
    · exact emit_length h
    · exact packetizeLoop_length _ _ _ h

theorem packetizeAll_length {payloads : List Bytes} (h : packet ∈ (p.packetizeAll mtu payloads).2) :
    packet.length ≤ mtu := by
  induction payloads generalizing p with
  | nil => cases h
  | cons payload payloads ih =>
    rcases List.mem_append.mp h with hhere | hrest
    · exact packetize_length hhere
    · exact ih hrest

example : (({} : Packetizer).packetize 5 [0,0,1,0,1,2,3,4,5,6,7,8,9,0x10,0x11,0x12,0x13,0x14,0x15]).2 =
    [[0x1c,0x80,1,2,3],[0x1c,0,4,5,6],[0x1c,0,7,8,9],[0x1c,0,0x10,0x11,0x12],[0x1c,0x40,0x13,0x14,0x15]] := by
  decide

variable {i zeroCount : ℕ} {bs rest : Bytes}

theorem nextIndLoop_clean (h : Clean zeroCount bs) : nextIndLoop start bs i zeroCount = none := by
  induction bs generalizing i zeroCount with
  | nil => rfl
  | cons b bs ih =>
    unfold nextIndLoop
    split
    next hzero =>
      subst hzero
      exact ih (clean_zero_cons.mp h)
    next hzero =>
      obtain ⟨hone,hclean⟩ := (clean_cons hzero).mp h
      rw [if_neg hone]
      exact ih hclean

/-- A unit is passed over, and its end is no part of the zeros behind it. -/
theorem nextIndLoop_unit (h : Clean zeroCount bs) (hne : bs ≠ []) (hlast : bs.getLast? ≠ some 0) :
    nextIndLoop start (bs ++ rest) i zeroCount = nextIndLoop start rest (i + bs.length) 0 := by
  induction bs generalizing i zeroCount with
  | nil => exact absurd rfl hne
  | cons b bs ih =>
    rw [List.cons_append,nextIndLoop]
    cases bs with
    | nil =>
      have hzero : b ≠ 0 := fun hzero => hlast (by rw [hzero]; rfl)
      rw [if_neg hzero,if_neg ((clean_cons hzero).mp h).1]
      rfl
    | cons b' bs =>
      rw [List.getLast?_cons_cons] at hlast
      have hlength : i + 1 + (b' :: bs).length = i + (b :: b' :: bs).length := by
        simp only [List.length_cons]
        omega
      split
      next hzero =>
        subst hzero
        rw [ih (clean_zero_cons.mp h) (List.cons_ne_nil _ _) hlast,hlength]
      next hzero =>
        obtain ⟨hone,hclean⟩ := (clean_cons hzero).mp h
        rw [if_neg hone,ih hclean (List.cons_ne_nil _ _) hlast,hlength]

theorem nextIndLoop_startCode (zeros : ℕ) (h : 2 ≤ zeroCount + zeros) :
    nextIndLoop start (List.replicate zeros 0 ++ 1 :: rest) i zeroCount =
      some (start + (i + zeros) - (zeroCount + zeros),zeroCount + zeros + 1) := by
  induction zeros generalizing i zeroCount with
  | zero =>
    rw [List.replicate_zero,List.nil_append,nextIndLoop,if_neg (by decide),if_pos ⟨rfl,h⟩]
    rfl
  | succ zeros ih =>
    rw [List.replicate_succ,List.cons_append,nextIndLoop,if_pos rfl,ih (by omega)]
    congr 2 <;> omega

theorem getLast?_bytes (u : NalUnit) : u.bytes.getLast? ≠ some 0 := u.noTrailingZero

theorem nextInd_last (pre : Bytes) (u : NalUnit) : nextInd (pre ++ u.bytes) pre.length = none := by
  rw [nextInd,List.drop_left]
  exact nextIndLoop_clean u.clean

theorem nextInd_next (pre : Bytes) (u : NalUnit) (zeros : ℕ) (rest : Bytes) :
    nextInd (pre ++ (u.bytes ++ (startCode zeros ++ rest))) pre.length =
      some (pre.length + u.bytes.length,(startCode zeros).length) := by
  rw [nextInd,List.drop_left,nextIndLoop_unit u.clean (List.cons_ne_nil _ _) (getLast?_bytes u),startCode,
    List.append_assoc,List.singleton_append,nextIndLoop_startCode _ (by omega),List.length_append,
    List.length_replicate,List.length_singleton]
  congr 2 <;> omega

theorem nextInd_startCode (zeros : ℕ) (rest : Bytes) :
    nextInd (startCode zeros ++ rest) 0 = some (0,(startCode zeros).length) := by
  rw [nextInd,List.drop_zero,startCode,List.append_assoc,List.singleton_append,nextIndLoop_startCode _ (by omega),
    List.length_append,List.length_replicate,List.length_singleton]
  congr 2 <;> omega

/-- The packets of one unit after the other. -/
def Packetizer.emitAll (mtu : ℕ) : Packetizer → List NalUnit → Packetizer × List Bytes
  | p, [] => (p,[])
  | p, u :: us =>
    let r := p.emit mtu u.bytes
    let rest := emitAll mtu r.1 us
    (rest.1,r.2 ++ rest.2)

theorem packetizeLoop_units (fuel : ℕ) (pre : Bytes) (u : NalUnit) (us : List (ℕ × NalUnit)) (p : Packetizer)
    (hfuel : us.length < fuel) :
    p.packetizeLoop mtu (pre ++ (u.bytes ++ byteStream us)) fuel pre.length = p.emitAll mtu (u :: us.map Prod.snd) := by
  induction us generalizing fuel pre u p with
  | nil =>
    obtain ⟨fuel,rfl⟩ : ∃ n, fuel = n + 1 := ⟨fuel - 1,by omega⟩
    have hunit : (pre ++ (u.bytes ++ byteStream [])).drop pre.length = u.bytes := by
      rw [List.drop_left,byteStream,List.append_nil]
    have hlast : nextInd (pre ++ (u.bytes ++ byteStream [])) pre.length = none := by
      rw [byteStream,List.append_nil,nextInd_last]
    rw [Packetizer.packetizeLoop,hlast]
    dsimp only
    rw [hunit]
    simp only [Packetizer.emitAll,List.map_nil,List.append_nil]
  | cons v us ih =>
    obtain ⟨zeros,v⟩ := v
    obtain ⟨fuel,rfl⟩ : ∃ n, fuel = n + 1 := ⟨fuel - 1,by omega⟩
    have hunit : ((pre ++ (u.bytes ++ byteStream ((zeros,v) :: us))).drop pre.length).take
        (pre.length + u.bytes.length - pre.length) = u.bytes := by
      rw [List.drop_left,Nat.add_sub_cancel_left,List.take_left]
    have hpre : pre ++ (u.bytes ++ byteStream ((zeros,v) :: us)) =
        (pre ++ u.bytes ++ startCode zeros) ++ (v.bytes ++ byteStream us) := by
      rw [byteStream]
      simp only [List.append_assoc]
    have hlength : pre.length + u.bytes.length + (startCode zeros).length =
        (pre ++ u.bytes ++ startCode zeros).length := by
      simp only [List.length_append]
    have hnext : nextInd (pre ++ (u.bytes ++ byteStream ((zeros,v) :: us))) pre.length =
        some (pre.length + u.bytes.length,(startCode zeros).length) := nextInd_next pre u zeros _
    rw [Packetizer.packetizeLoop,hnext]
    dsimp only
    rw [hunit,hlength,hpre,ih fuel _ _ _ (Nat.lt_of_succ_lt_succ hfuel)]
    rfl

theorem length_byteStream (us : List (ℕ × NalUnit)) : us.length ≤ (byteStream us).length := by
  induction us with
  | nil => exact Nat.le_refl 0
  | cons u us ih =>
    obtain ⟨zeros,u⟩ := u
    simp only [byteStream,startCode,List.length_append,List.length_cons,List.length_replicate]
    omega

/-- The packetizer finds the units of a stream, whatever their start codes are like. -/
theorem packetize_units (hmtu : mtu ≠ 0) (us : List (ℕ × NalUnit)) (p : Packetizer) :
    p.packetize mtu (byteStream us) = p.emitAll mtu (us.map Prod.snd) := by
  match us with
  | [] => exact if_pos (.inl rfl)
  | (zeros,u) :: us =>
    have hne : ¬ (byteStream ((zeros,u) :: us) = [] ∨ mtu = 0) := by
      rw [not_or]
      exact ⟨by simp [byteStream,startCode],hmtu⟩
    have hfuel : us.length < (byteStream ((zeros,u) :: us)).length := length_byteStream ((zeros,u) :: us)
    rw [Packetizer.packetize,if_neg hne]
    rw [byteStream] at hfuel ⊢
    rw [nextInd_startCode]
    dsimp only
    rw [Nat.zero_add,packetizeLoop_units _ _ _ _ _ hfuel]
    rfl

end H264
end AnyKvm
