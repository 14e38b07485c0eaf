import AnyKvm.H264

/-! Samples of H.264 through the packets and back. Parameter sets are held back until the next unit that is shown, and
travel with it; all other units arrive as they are and in their order. -/
namespace AnyKvm
namespace H264

open AnnexB
open Outcome (index slice index_eq_ok slice_of_le)
open Turn (u16ToBeBytes)

/-- A unit as an encoder makes it: the forbidden bit is zero, and the type is that of a single unit. -/
structure MediaUnit extends NalUnit where
  forbiddenZeroBit : header &&& 0x80 = 0
  single : 1 ≤ header &&& naluTypeBitmask ∧ header &&& naluTypeBitmask ≤ 23

def MediaUnit.naluType (u : MediaUnit) : UInt8 := u.header &&& naluTypeBitmask

/-- Units that are shown, unlike parameter sets, delimiters and filler data. -/
def MediaUnit.shown (u : MediaUnit) : Bool :=
  u.naluType ∉ [audNaluType,fillerNaluType,spsNaluType,ppsNaluType]

def stream (us : List (ℕ × MediaUnit)) : Bytes := byteStream (us.map fun (zeros,u) => (zeros,u.toNalUnit))

structure Held where
  sps : Option MediaUnit := none
  pps : Option MediaUnit := none

namespace Held
variable (w : Held)

/-- What a unit leaves held back, and the units that travel with it. -/
def deliver (mtu : ℕ) (u : MediaUnit) : Held × List MediaUnit :=
  if u.naluType = audNaluType ∨ u.naluType = fillerNaluType then (w,[])
  else if u.naluType = spsNaluType then ({ w with sps := some u },[])
  else if u.naluType = ppsNaluType then ({ w with pps := some u },[])
  else
    match w.sps, w.pps with
    | some sps, some pps =>
      ({},(if 5 + sps.bytes.length + pps.bytes.length ≤ mtu then [sps,pps] else []) ++ [u])
    | _, _ => (w,[u])

def deliverAll (mtu : ℕ) : Held → List MediaUnit → Held × List MediaUnit
  | w, [] => (w,[])
  | w, u :: us =>
    let r := w.deliver mtu u
    let rest := deliverAll mtu r.1 us
    (rest.1,r.2 ++ rest.2)

def packetizer : Packetizer where
  spsNalu := w.sps.map fun u => u.bytes
  ppsNalu := w.pps.map fun u => u.bytes

end Held

/-- The sample that a receiver has with one more unit. -/
def Sample.receive (s : Sample) (u : MediaUnit) : Sample := s.add false u.naluType u.bytes

theorem forall_byte {P : UInt8 → Prop} (h : ∀ b : BitVec 8, P ⟨b⟩) (b : UInt8) : P b := h b.toBitVec

theorem fragment_type (header : UInt8) :
    (fuaNaluType ||| header &&& naluRefIdcBitmask) &&& naluTypeBitmask = fuaNaluType := by
  revert header
  exact forall_byte (by decide +kernel)

theorem start_no_end (header : UInt8) : (header &&& naluTypeBitmask ||| 0x80) &&& fuEndBitmask = 0 := by
  revert header
  exact forall_byte (by decide +kernel)

theorem middle_no_end (header : UInt8) : header &&& naluTypeBitmask &&& fuEndBitmask = 0 := by
  revert header
  exact forall_byte (by decide +kernel)

theorem end_end (header : UInt8) : (header &&& naluTypeBitmask ||| 0x40) &&& fuEndBitmask ≠ 0 := by
  revert header
  exact forall_byte (by decide +kernel)

theorem end_type (header : UInt8) :
    (header &&& naluTypeBitmask ||| 0x40) &&& naluTypeBitmask = header &&& naluTypeBitmask := by
  revert header
  exact forall_byte (by decide +kernel)

theorem fragment_header (header : UInt8) (h : header &&& 0x80 = 0) :
    (fuaNaluType ||| header &&& naluRefIdcBitmask) &&& naluRefIdcBitmask ||| header &&& naluTypeBitmask = header := by
  revert header
  exact forall_byte (by decide +kernel)

variable {mtu : ℕ} {s : Sample} {u : MediaUnit} {packet : Bytes}

theorem depacketizeAll_append (d : Depacketizer) (xs ys : List Bytes) (s : Sample) :
    d.depacketizeAll (xs ++ ys) s = (d.depacketizeAll xs s).bind fun r => r.1.depacketizeAll ys r.2 := by
  induction xs generalizing d s with
  | nil => rfl
  | cons x xs ih =>
    simp only [List.cons_append,Depacketizer.depacketizeAll]
    cases d.depacketize x s with
    | ok r => exact ih r.1 r.2
    | err e => rfl
    | panicked => rfl

theorem depacketize_single (u : MediaUnit) (s : Sample) :
    ({} : Depacketizer).depacketize u.bytes s = .ok ({},s.receive u) := by
  unfold NalUnit.bytes Depacketizer.depacketize
  dsimp only
  rw [if_pos u.single]
  rfl

theorem depacketize_fragment {b₀ b₁ : UInt8} (fragment : Bytes) (fuaBuffer : Option Bytes) (s : Sample)
    (hb₀ : b₀ &&& naluTypeBitmask = fuaNaluType) (hb₁ : b₁ &&& fuEndBitmask = 0) :
    ({ fuaBuffer := fuaBuffer } : Depacketizer).depacketize (b₀ :: b₁ :: fragment) s =
      .ok ({ fuaBuffer := some (fuaBuffer.getD [] ++ fragment) },s) := by
  unfold Depacketizer.depacketize
  dsimp only
  rw [hb₀,if_neg (by decide),if_neg (by decide),if_pos rfl,if_neg (not_not.mpr hb₁)]

theorem depacketize_lastFragment {b₀ b₁ : UInt8} (fragment : Bytes) (fuaBuffer : Option Bytes) (s : Sample)
    (hb₀ : b₀ &&& naluTypeBitmask = fuaNaluType) (hb₁ : b₁ &&& fuEndBitmask ≠ 0) :
    ({ fuaBuffer := fuaBuffer } : Depacketizer).depacketize (b₀ :: b₁ :: fragment) s =
      .ok ({},s.add false (b₁ &&& naluTypeBitmask)
        ((b₀ &&& naluRefIdcBitmask ||| b₁ &&& naluTypeBitmask) :: (fuaBuffer.getD [] ++ fragment))) := by
  unfold Depacketizer.depacketize
  dsimp only
  rw [hb₀,if_neg (by decide),if_neg (by decide),if_pos rfl,if_pos hb₁]

theorem fuaLoop_succ (naluRefIdc naluType : UInt8) (size total fuel : ℕ) {data : Bytes} (hdata : data ≠ []) :
    fuaLoop naluRefIdc naluType size total (fuel + 1) data =
      ((fuaNaluType ||| naluRefIdc) :: (if data.length = total then naluType ||| 0x80
        else if data.length - min size data.length = 0 then naluType ||| 0x40 else naluType) ::
          data.take (min size data.length)) ::
        fuaLoop naluRefIdc naluType size total fuel (data.drop (min size data.length)) :=
  if_neg fun hzero => hdata (List.length_eq_zero_iff.mp hzero)

theorem depacketize_fuaLoop (u : MediaUnit) {size total fuel : ℕ} (hsize : 0 < size) (data buffer : Bytes)
    (hdata : data ≠ []) (htotal : data.length < total) (hfuel : data.length ≤ fuel) :
    ({ fuaBuffer := some buffer } : Depacketizer).depacketizeAll
      (fuaLoop (u.header &&& naluRefIdcBitmask) u.naluType size total fuel data) s =
      .ok ({},s.add false u.naluType (u.header :: (buffer ++ data))) := by
  induction fuel generalizing data buffer with
  | zero => exact absurd (List.length_eq_zero_iff.mp (Nat.le_zero.mp hfuel)) hdata
  | succ fuel ih =>
    rw [fuaLoop_succ _ _ _ _ _ hdata,if_neg (Nat.ne_of_lt htotal),Depacketizer.depacketizeAll]
    by_cases hlast : data.length ≤ size
    · rw [Nat.min_eq_right hlast,Nat.sub_self,if_pos rfl,List.take_length,List.drop_length]
      unfold MediaUnit.naluType
      rw [depacketize_lastFragment _ _ _ (fragment_type _) (end_end _),end_type,fragment_header _ u.forbiddenZeroBit]
      cases fuel <;> rfl
    · have hmin : min size data.length = size := Nat.min_eq_left (by omega)
      have hrest : (data.drop size).length = data.length - size := List.length_drop
      rw [hmin,if_neg (by omega)]
      have hfragment := depacketize_fragment (data.take size) (some buffer) s (fragment_type u.header)
        (middle_no_end u.header)
      unfold MediaUnit.naluType at ih ⊢
      rw [hfragment]
      change Depacketizer.depacketizeAll _ _ _ = _
      rw [Option.getD_some,ih (data.drop size) (buffer ++ data.take size)
        (fun hnil => by rw [hnil,List.length_nil] at hrest; omega) (by omega) (by omega),List.append_assoc,
        List.take_append_drop]

theorem depacketize_fragments (hmtu : 3 ≤ mtu) (u : MediaUnit) (s : Sample) :
    ({} : Depacketizer).depacketizeAll (fragments mtu u.bytes (u.header &&& naluRefIdcBitmask) u.naluType) s =
      .ok ({},s.receive u) := by
  unfold fragments
  split
  next => rw [Depacketizer.depacketizeAll,depacketize_single]; rfl
  next hlong =>
    have hlength : u.bytes.length = u.payload.length + 1 := List.length_cons
    have hdrop : u.bytes.drop 1 = u.payload := rfl
    dsimp only
    rw [hdrop,if_neg (by unfold fuaHeaderSize; omega)]
    obtain ⟨fuel,hfuel⟩ : ∃ n, u.payload.length = n + 1 := ⟨u.payload.length - 1,by omega⟩
    have hmin : min (mtu - fuaHeaderSize) u.payload.length = mtu - fuaHeaderSize :=
      Nat.min_eq_left (by unfold fuaHeaderSize; omega)
    have hrest : (u.payload.drop (mtu - fuaHeaderSize)).length = u.payload.length - (mtu - fuaHeaderSize) :=
      List.length_drop
    have hsize : 0 < mtu - fuaHeaderSize ∧ mtu - fuaHeaderSize < u.payload.length := by unfold fuaHeaderSize; omega
    have hfirst : fuaLoop (u.header &&& naluRefIdcBitmask) u.naluType (mtu - fuaHeaderSize) u.payload.length
        u.payload.length u.payload =
        ((fuaNaluType ||| u.header &&& naluRefIdcBitmask) :: (u.naluType ||| 0x80) ::
          u.payload.take (mtu - fuaHeaderSize)) ::
          fuaLoop (u.header &&& naluRefIdcBitmask) u.naluType (mtu - fuaHeaderSize) u.payload.length fuel
            (u.payload.drop (mtu - fuaHeaderSize)) := by
      have hdata : u.payload ≠ [] := fun hnil => by rw [hnil,List.length_nil] at hfuel; omega
      have hloop := fuaLoop_succ (u.header &&& naluRefIdcBitmask) u.naluType (mtu - fuaHeaderSize) u.payload.length
        fuel hdata
      rwa [if_pos rfl,hmin,← hfuel] at hloop
    have hfragment := depacketize_fragment (u.payload.take (mtu - fuaHeaderSize)) none s (fragment_type u.header)
      (start_no_end u.header)
    rw [hfirst,Depacketizer.depacketizeAll]
    unfold MediaUnit.naluType
    rw [hfragment]
    change Depacketizer.depacketizeAll _ (fuaLoop _ u.naluType _ _ _ _) _ = _
    rw [Option.getD_none,List.nil_append,depacketize_fuaLoop u hsize.1 _ _
      (fun hnil => by rw [hnil,List.length_nil] at hrest; omega) (by omega) (by omega),List.take_append_drop]
    rfl

theorem length_bytes {n : ℕ} (h : n < 65536) :
    (UInt16.ofNat n >>> 8).toUInt8.toNat <<< 8 ||| (UInt16.ofNat n).toUInt8.toNat = n := by
  have hword : (UInt16.ofNat n).toNat = n := UInt16.toNat_ofNat_of_lt' h
  have hhi : (UInt16.ofNat n >>> 8).toUInt8.toNat = n / 256 := by
    rw [UInt16.toNat_toUInt8,UInt16.toNat_shiftRight,hword]
    change n >>> 8 % 256 = n / 256
    rw [Nat.shiftRight_eq_div_pow]
    omega
  have hlo : (UInt16.ofNat n).toUInt8.toNat = n % 2 ^ 8 := by rw [UInt16.toNat_toUInt8,hword]
  rw [hhi,hlo,← Nat.shiftLeft_add_eq_or_of_lt (Nat.mod_lt _ (Nat.two_pow_pos 8)),Nat.shiftLeft_eq]
  omega

theorem index_append (pre : Bytes) (b : UInt8) (rest : Bytes) :
    (index (pre ++ b :: rest) pre.length : Outcome PacketError UInt8) = .ok b := by
  rw [index_eq_ok,List.getElem?_append_right (Nat.le_refl _),Nat.sub_self,List.getElem?_cons_zero]

theorem slice_append (pre nalu rest : Bytes) :
    (slice (pre ++ (nalu ++ rest)) pre.length (pre.length + nalu.length) : Outcome PacketError Bytes) = .ok nalu := by
  rw [slice_of_le (Nat.le_add_right _ _) (by simp only [List.length_append]; omega),List.drop_left,
    Nat.add_sub_cancel_left,List.take_left]

theorem stapaLoop_unit (pre rest : Bytes) (u : MediaUnit) (s : Sample) (fuel : ℕ) (h : u.bytes.length < 65536) :
    stapaLoop false (pre ++ (u16ToBeBytes (UInt16.ofNat u.bytes.length) ++ (u.bytes ++ rest))) (fuel + 1) pre.length s =
      stapaLoop false (pre ++ (u16ToBeBytes (UInt16.ofNat u.bytes.length) ++ (u.bytes ++ rest))) fuel
        (pre.length + 2 + u.bytes.length) (s.receive u) := by
  obtain ⟨n,hn⟩ : ∃ n, u.bytes.length = n := ⟨_,rfl⟩
  obtain ⟨packet,hpacket⟩ : ∃ packet,
      pre ++ (u16ToBeBytes (UInt16.ofNat u.bytes.length) ++ (u.bytes ++ rest)) = packet := ⟨_,rfl⟩
  have hlength : packet.length = pre.length + 2 + n + rest.length := by
    rw [← hpacket,← hn]
    simp only [List.length_append]
    change pre.length + (2 + (u.bytes.length + rest.length)) = _
    omega
  have hhi : (index packet pre.length : Outcome PacketError UInt8) = .ok (UInt16.ofNat n >>> 8).toUInt8 := by
    rw [← hpacket,hn]
    exact index_append pre _ _
  have hlo : (index packet (pre.length + 1) : Outcome PacketError UInt8) = .ok (UInt16.ofNat n).toUInt8 := by
    have hsplit : packet = (pre ++ [(UInt16.ofNat n >>> 8).toUInt8]) ++ (UInt16.ofNat n).toUInt8 :: (u.bytes ++ rest) := by
      rw [← hpacket,hn,List.append_assoc]
      rfl
    have hindex := index_append (pre ++ [(UInt16.ofNat n >>> 8).toUInt8]) (UInt16.ofNat n).toUInt8 (u.bytes ++ rest)
    rwa [← hsplit,List.length_append,List.length_singleton] at hindex
  have hunit : packet = (pre ++ u16ToBeBytes (UInt16.ofNat n)) ++ (u.bytes ++ rest) := by
    rw [← hpacket,hn,List.append_assoc]
  have hoffset : (pre ++ u16ToBeBytes (UInt16.ofNat n)).length = pre.length + 2 := List.length_append
  have hheader : (index packet (pre.length + 2) : Outcome PacketError UInt8) = .ok u.header := by
    rw [hunit,← hoffset]
    exact index_append _ u.header (u.payload ++ rest)
  have hnalu : (slice packet (pre.length + 2) (pre.length + 2 + n) : Outcome PacketError Bytes) = .ok u.bytes := by
    rw [hunit,← hoffset,← hn]
    exact slice_append _ u.bytes rest
  rw [hpacket,hn,stapaLoop,if_pos (by omega),hhi,Outcome.ok_bind,hlo,Outcome.ok_bind]
  dsimp only
  rw [length_bytes (hn ▸ h)]
  unfold stapaNaluLengthSize
  rw [if_neg (by omega),hheader,Outcome.ok_bind,hnalu,Outcome.ok_bind]
  rfl

theorem stapaLoop_done {packet : Bytes} {currOffset : ℕ} (fuel : ℕ) (h : packet.length ≤ currOffset) (s : Sample) :
    stapaLoop false packet fuel currOffset s = .ok s := by
  cases fuel with
  | zero => rfl
  | succ fuel => exact if_neg (by omega)

theorem length_stapANalu (sps pps : Bytes) : (stapANalu sps pps).length = 5 + sps.length + pps.length := by
  unfold stapANalu u16ToBeBytes
  simp only [List.length_cons,List.length_append,List.length_nil]
  omega

theorem depacketize_stapANalu (sps pps : MediaUnit) (s : Sample) (h : 5 + sps.bytes.length + pps.bytes.length < 65536) :
    ({} : Depacketizer).depacketize (stapANalu sps.bytes pps.bytes) s = .ok ({},(s.receive sps).receive pps) := by
  have hlength := length_stapANalu sps.bytes pps.bytes
  obtain ⟨rest,hrest⟩ : ∃ rest, stapANalu sps.bytes pps.bytes = outputStapAheader :: rest := ⟨_,rfl⟩
  have hfirst : stapANalu sps.bytes pps.bytes = [outputStapAheader] ++
      (u16ToBeBytes (UInt16.ofNat sps.bytes.length) ++
        (sps.bytes ++ (u16ToBeBytes (UInt16.ofNat pps.bytes.length) ++ pps.bytes))) := by
    unfold stapANalu
    simp only [List.append_assoc,List.singleton_append]
  have hsecond : stapANalu sps.bytes pps.bytes =
      ([outputStapAheader] ++ u16ToBeBytes (UInt16.ofNat sps.bytes.length) ++ sps.bytes) ++
        (u16ToBeBytes (UInt16.ofNat pps.bytes.length) ++ (pps.bytes ++ [])) := by
    unfold stapANalu
    simp only [List.append_assoc,List.cons_append,List.nil_append,List.append_nil]
  have hoffset : ([outputStapAheader] ++ u16ToBeBytes (UInt16.ofNat sps.bytes.length) ++ sps.bytes).length =
      [outputStapAheader].length + 2 + sps.bytes.length := by
    rw [List.length_append,List.length_append]
    rfl
  obtain ⟨fuel,hfuel⟩ : ∃ n, (stapANalu sps.bytes pps.bytes).length = n + 1 + 1 :=
    ⟨3 + sps.bytes.length + pps.bytes.length,by omega⟩
  have hloop : stapaLoop false (stapANalu sps.bytes pps.bytes) (fuel + 1 + 1) stapaHeaderSize s =
      .ok ((s.receive sps).receive pps) := by
    have hstep := stapaLoop_unit [outputStapAheader] (u16ToBeBytes (UInt16.ofNat pps.bytes.length) ++ pps.bytes) sps s
      (fuel + 1) (by omega)
    have hstep' := stapaLoop_unit ([outputStapAheader] ++ u16ToBeBytes (UInt16.ofNat sps.bytes.length) ++ sps.bytes) []
      pps (s.receive sps) fuel (by omega)
    rw [← hfirst,← hoffset] at hstep
    rw [← hsecond] at hstep'
    refine hstep.trans (hstep'.trans (stapaLoop_done fuel ?_ _))
    rw [hlength,hoffset,List.length_singleton]
    omega
  rw [hrest]
  unfold Depacketizer.depacketize
  dsimp only
  rw [← hrest,hfuel,if_neg (by decide),if_pos (by decide),hloop,Outcome.ok_bind]

variable {w : Held}

/-- The packets of a unit hand over what travels with it, and leave held back what is held back. -/
theorem emit_deliver (hmtu : 3 ≤ mtu) (hmax : mtu < 65536) (w : Held) (u : MediaUnit) (s : Sample) :
    (w.packetizer.emit mtu u.bytes).1 = (w.deliver mtu u).1.packetizer ∧
      ({} : Depacketizer).depacketizeAll (w.packetizer.emit mtu u.bytes).2 s =
        .ok ({},(w.deliver mtu u).2.foldl Sample.receive s) := by
  unfold Held.deliver
  by_cases hskipped : u.naluType = audNaluType ∨ u.naluType = fillerNaluType
  · have hemit : w.packetizer.emit mtu u.bytes = (w.packetizer,[]) := if_pos hskipped
    rw [hemit,if_pos hskipped]
    exact ⟨rfl,rfl⟩
  rw [if_neg hskipped]
  by_cases hsps : u.naluType = spsNaluType
  · have hemit : w.packetizer.emit mtu u.bytes = ({ w.packetizer with spsNalu := some u.bytes },[]) :=
      (if_neg hskipped).trans (if_pos hsps)
    rw [hemit,if_pos hsps]
    exact ⟨rfl,rfl⟩
  rw [if_neg hsps]
  by_cases hpps : u.naluType = ppsNaluType
  · have hemit : w.packetizer.emit mtu u.bytes = ({ w.packetizer with ppsNalu := some u.bytes },[]) :=
      (if_neg hskipped).trans ((if_neg hsps).trans (if_pos hpps))
    rw [hemit,if_pos hpps]
    exact ⟨rfl,rfl⟩
  rw [if_neg hpps]
  obtain ⟨sps,pps⟩ := w
  cases sps with
  | none =>
    have hemit : (⟨none,pps⟩ : Held).packetizer.emit mtu u.bytes = ((⟨none,pps⟩ : Held).packetizer,
        fragments mtu u.bytes (u.header &&& naluRefIdcBitmask) u.naluType) :=
      (if_neg hskipped).trans ((if_neg hsps).trans (if_neg hpps))
    rw [hemit]
    exact ⟨rfl,depacketize_fragments hmtu u s⟩
  | some sps =>
    cases pps with
    | none =>
      have hemit : (⟨some sps,none⟩ : Held).packetizer.emit mtu u.bytes = ((⟨some sps,none⟩ : Held).packetizer,
          fragments mtu u.bytes (u.header &&& naluRefIdcBitmask) u.naluType) :=
        (if_neg hskipped).trans ((if_neg hsps).trans (if_neg hpps))
      rw [hemit]
      exact ⟨rfl,depacketize_fragments hmtu u s⟩
    | some pps =>
      have hemit : (⟨some sps,some pps⟩ : Held).packetizer.emit mtu u.bytes =
          ({},(if (stapANalu sps.bytes pps.bytes).length ≤ mtu then [stapANalu sps.bytes pps.bytes] else []) ++
            fragments mtu u.bytes (u.header &&& naluRefIdcBitmask) u.naluType) :=
        (if_neg hskipped).trans ((if_neg hsps).trans (if_neg hpps))
      rw [hemit,length_stapANalu]
      refine ⟨rfl,?_⟩
      dsimp only
      rw [depacketizeAll_append]
      split
      next hfits =>
        rw [Depacketizer.depacketizeAll,depacketize_stapANalu _ _ _ (Nat.lt_of_le_of_lt hfits hmax)]
        exact depacketize_fragments hmtu u _
      next => exact depacketize_fragments hmtu u s

theorem emitAll_deliverAll (hmtu : 3 ≤ mtu) (hmax : mtu < 65536) (us : List MediaUnit) (w : Held) (s : Sample) :
    (w.packetizer.emitAll mtu (us.map MediaUnit.toNalUnit)).1 = (w.deliverAll mtu us).1.packetizer ∧
      ({} : Depacketizer).depacketizeAll (w.packetizer.emitAll mtu (us.map MediaUnit.toNalUnit)).2 s =
        .ok ({},(w.deliverAll mtu us).2.foldl Sample.receive s) := by
  induction us generalizing w s with
  | nil => exact ⟨rfl,rfl⟩
  | cons u us ih =>
    obtain ⟨hpacketizer,hpackets⟩ := emit_deliver hmtu hmax w u s
    obtain ⟨hrest,hrests⟩ := ih (w.deliver mtu u).1 ((w.deliver mtu u).2.foldl Sample.receive s)
    simp only [List.map_cons,Packetizer.emitAll,Held.deliverAll,hpacketizer]
    refine ⟨hrest,?_⟩
    rw [depacketizeAll_append,hpackets,List.foldl_append]
    exact hrests

theorem deliverAll_append (us vs : List MediaUnit) (w : Held) :
    w.deliverAll mtu (us ++ vs) = (((w.deliverAll mtu us).1.deliverAll mtu vs).1,
      (w.deliverAll mtu us).2 ++ ((w.deliverAll mtu us).1.deliverAll mtu vs).2) := by
  induction us generalizing w with
  | nil => rfl
  | cons u us ih => simp only [List.cons_append,Held.deliverAll,ih,List.append_assoc]

theorem packetize_stream (hmtu : mtu ≠ 0) (us : List (ℕ × MediaUnit)) (p : Packetizer) :
    p.packetize mtu (stream us) = p.emitAll mtu ((us.map Prod.snd).map MediaUnit.toNalUnit) := by
  rw [stream,packetize_units hmtu,List.map_map,List.map_map]
  rfl

theorem packetizeAll_deliverAll (hmtu : 3 ≤ mtu) (hmax : mtu < 65536) (samples : List (List (ℕ × MediaUnit)))
    (w : Held) (s : Sample) :
    ({} : Depacketizer).depacketizeAll (w.packetizer.packetizeAll mtu (samples.map stream)).2 s =
      .ok ({},(w.deliverAll mtu (samples.flatten.map Prod.snd)).2.foldl Sample.receive s) := by
  induction samples generalizing w s with
  | nil => rfl
  | cons us samples ih =>
    obtain ⟨hpacketizer,hpackets⟩ := emitAll_deliverAll hmtu hmax (us.map Prod.snd) w s
    simp only [List.map_cons,Packetizer.packetizeAll,packetize_stream (Nat.ne_of_gt (Nat.lt_of_lt_of_le (by decide) hmtu)),
      hpacketizer]
    rw [depacketizeAll_append,hpackets,List.flatten_cons,List.map_append,deliverAll_append,List.foldl_append]
    exact ih _ _

theorem out_receive (us : List MediaUnit) (s : Sample) :
    (us.foldl Sample.receive s).out = s.out ++ stream (us.map fun u => (1,u)) := by
  induction us generalizing s with
  | nil => exact (List.append_nil _).symm
  | cons u us ih =>
    rw [List.foldl_cons,ih]
    change (s.out ++ annexbNalustartCode ++ u.bytes) ++ _ = s.out ++ (startCode 1 ++ (u.bytes ++ _))
    simp only [List.append_assoc]
    rfl

theorem isKeyframe_receive (us : List MediaUnit) (s : Sample) :
    (us.foldl Sample.receive s).isKeyframe.getD false =
      (us.any (fun u => u.naluType = idrNaluType) || s.isKeyframe.getD false) := by
  induction us generalizing s with
  | nil => exact (Bool.false_or _).symm
  | cons u us ih =>
    rw [List.foldl_cons,ih,List.any_cons]
    change (_ || (_ || _)) = _
    rw [← Bool.or_assoc,Bool.or_comm (us.any _)]

def Held.Kept (w : Held) : Prop := ∀ u, w.sps = some u ∨ w.pps = some u → u.shown = false

theorem shown_eq_false {u : MediaUnit}
    (h : u.naluType = audNaluType ∨ u.naluType = fillerNaluType ∨ u.naluType = spsNaluType ∨ u.naluType = ppsNaluType) :
    u.shown = false := by
  unfold MediaUnit.shown
  simpa only [decide_eq_false_iff_not,not_not,List.mem_cons,List.not_mem_nil,or_false] using h

theorem deliver_shown (mtu : ℕ) (w : Held) (u : MediaUnit) (hw : w.Kept) :
    (w.deliver mtu u).1.Kept ∧ (w.deliver mtu u).2.filter MediaUnit.shown = [u].filter MediaUnit.shown := by
  unfold Held.deliver
  have hnone : u.shown = false → [].filter MediaUnit.shown = [u].filter MediaUnit.shown := fun h => by
    rw [List.filter_cons_of_neg (by rw [h]; exact Bool.noConfusion)]
  split_ifs with hskipped hsps hpps
  · exact ⟨hw,hnone (shown_eq_false (by tauto))⟩
  · have hshown := shown_eq_false (u := u) (.inr (.inr (.inl hsps)))
    refine ⟨?_,hnone hshown⟩
    rintro v (hv | hv)
    · exact Option.some.inj hv ▸ hshown
    · exact hw v (.inr hv)
  · have hshown := shown_eq_false (u := u) (.inr (.inr (.inr hpps)))
    refine ⟨?_,hnone hshown⟩
    rintro v (hv | hv)
    · exact hw v (.inl hv)
    · exact Option.some.inj hv ▸ hshown
  · obtain ⟨sps,pps⟩ := w
    cases sps with
    | none => exact ⟨hw,rfl⟩
    | some sps =>
      cases pps with
      | none => exact ⟨hw,rfl⟩
      | some pps =>
        refine ⟨?_,?_⟩
        · rintro v (hv | hv) <;> cases hv
        have hsets : ∀ v ∈ [sps,pps], ¬ v.shown = true := by
          intro v hv
          rw [List.mem_pair] at hv
          rcases hv with rfl | rfl
          · rw [hw v (.inl rfl)]
            exact Bool.noConfusion
          · rw [hw v (.inr rfl)]
            exact Bool.noConfusion
        dsimp only
        rw [List.filter_append]
        split
        · rw [List.filter_eq_nil_iff.mpr hsets,List.nil_append]
        · rfl

/-- Of the units that are shown, none is lost, doubled or moved. -/
theorem deliverAll_shown (us : List MediaUnit) (w : Held) (hw : w.Kept) :
    (w.deliverAll mtu us).2.filter MediaUnit.shown = us.filter MediaUnit.shown := by
  induction us generalizing w with
  | nil => rfl
  | cons u us ih =>
    obtain ⟨hkept,hshown⟩ := deliver_shown mtu w u hw
    rw [Held.deliverAll,List.filter_append,hshown,ih _ hkept,← List.filter_append]
    rfl

structure Transmitted (mtu : ℕ) (samples : List (List (ℕ × MediaUnit))) (packets : List Bytes) : Prop where
  fits : ∀ packet ∈ packets, packet.length ≤ mtu
  received : ∃ s, ({} : Depacketizer).depacketizeAll packets {} = .ok ({},s) ∧
    s.out = stream ((({} : Held).deliverAll mtu (samples.flatten.map Prod.snd)).2.map fun u => (1,u)) ∧
    s.isKeyframe.getD false =
      (({} : Held).deliverAll mtu (samples.flatten.map Prod.snd)).2.any fun u => u.naluType = idrNaluType
  shown : (({} : Held).deliverAll mtu (samples.flatten.map Prod.snd)).2.filter MediaUnit.shown =
    (samples.flatten.map Prod.snd).filter MediaUnit.shown

/-- A receiver of all packets of a sequence of samples has the units that are shown, in their order and unchanged, with
the parameter sets that fit into a packet. -/
theorem transmitted (hmtu : 3 ≤ mtu) (hmax : mtu < 65536) (samples : List (List (ℕ × MediaUnit))) :
    Transmitted mtu samples (({} : Packetizer).packetizeAll mtu (samples.map stream)).2 where
  fits _ hpacket := packetizeAll_length hpacket
  received := by
    refine ⟨_,packetizeAll_deliverAll hmtu hmax samples {} {},?_,?_⟩
    · rw [out_receive]
      rfl
    · rw [isKeyframe_receive]
      exact Bool.or_false _
  shown := by
    refine deliverAll_shown _ _ ?_
    rintro v (hv | hv) <;> cases hv

/-- Parameter sets in one sample, and the key frame in the next. -/
def keyframe : List (List (ℕ × MediaUnit)) :=
  [[(1,⟨⟨0x67,[0x42,0x1f],by decide,by decide⟩,by decide,by decide⟩),
      (1,⟨⟨0x68,[0xce,0x3c],by decide,by decide⟩,by decide,by decide⟩)],
    [(0,⟨⟨0x65,[0x88,0x84,0x21,0xa0],by decide,by decide⟩,by decide,by decide⟩)]]

theorem transmitted_keyframe :
    Transmitted rtpMtu keyframe (({} : Packetizer).packetizeAll rtpMtu (keyframe.map stream)).2 :=
  transmitted (by decide) (by decide) keyframe

end H264
end AnyKvm
