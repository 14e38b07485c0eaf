import AnyKvm.StunWriting

/-! What the parser reads when it gets a message as it has been written: the message, its integrity under the
password that it has been written with, and its fingerprint. -/
namespace AnyKvm
namespace Stun

open Outcome Bytes
open Turn (IpAddr SocketAddr u16ToBeBytes u32ToBeBytes u64ToBeBytes stunHeader encoded encodedAll)

theorem xorBytes_zipWith {ε : Type} {bytes mask : Bytes} (h : bytes.length = mask.length) (rest : Bytes) :
    (xorBytes mask (bytes.zipWith (· ^^^ ·) mask ++ rest) : Outcome ε Bytes) = .ok bytes := by
  induction mask generalizing bytes with
  | nil =>
    rw [List.length_eq_zero_iff.mp h]
    rfl
  | cons m mask ih =>
    cases bytes with
    | nil => cases h
    | cons b bytes =>
      have hrest := ih (Nat.succ.inj h)
      have hself : b ^^^ m ^^^ m = b := by
        rw [UInt8.xor_assoc,UInt8.xor_self,UInt8.xor_zero]
      rw [List.zipWith_cons_cons,List.cons_append,xorBytes,index_of_lt (by simp),ok_bind,List.drop_one,List.tail_cons,
        hrest,ok_bind,List.getD_cons_zero,hself]

theorem ipv4_eq (b₀ b₁ b₂ b₃ : UInt8) : ipv4 [b₀,b₁,b₂,b₃] = .v4 (u32FromBeBytes b₀ b₁ b₂ b₃) := by
  have h : ((b₀.toUInt32 <<< 8 ||| b₁.toUInt32) <<< 8 ||| b₂.toUInt32) <<< 8 ||| b₃.toUInt32 =
      u32FromBeBytes b₀ b₁ b₂ b₃ := by
    rw [← UInt32.toBitVec_inj]
    simp [u32FromBeBytes,BitVec.shiftLeft_or_distrib,← BitVec.shiftLeft_add]
  rw [← h]
  simp [ipv4]

theorem ipv4_octets (bits : UInt32) : ipv4 (octets (.v4 bits)) = .v4 bits := by
  rw [octets,u32ToBeBytes,ipv4_eq,Turn.u32FromBeBytes_toBe]

theorem shift_or_low {w : ℕ} (x : BitVec w) : x >>> 8 <<< 8 ||| (x.setWidth 8).setWidth w = x := by
  ext i hi
  simp only [BitVec.getElem_or,BitVec.getElem_shiftLeft,BitVec.getElem_setWidth,BitVec.getLsbD_setWidth]
  by_cases h : i < 8
  · simp [h,BitVec.getLsbD_eq_getElem hi]
  · simp [h,hi,BitVec.getLsbD_eq_getElem,show 8 + (i - 8) = i by omega]

theorem foldl_bytes {k : ℕ} (bits : BitVec (8 * k)) (n : ℕ) (hn : n ≤ k) :
    ((List.range n).map fun i => (⟨(bits >>> (8 * (k - 1 - i))).setWidth 8⟩ : UInt8)).foldl
      (fun (acc : BitVec (8 * k)) b => acc <<< 8 ||| b.toBitVec.setWidth (8 * k)) 0 = bits >>> (8 * (k - n)) := by
  induction n with
  | zero => exact (BitVec.ushiftRight_eq_zero (Nat.le_refl _)).symm
  | succ n ih =>
    have hshift : bits >>> (8 * (k - n)) = bits >>> (8 * (k - (n + 1))) >>> 8 := by
      rw [← BitVec.shiftRight_add]
      congr 1
      omega
    have hlast : k - 1 - n = k - (n + 1) := by omega
    rw [List.range_succ,List.map_append,List.foldl_append,ih (by omega),hshift]
    simp only [List.map_cons,List.map_nil,List.foldl_cons,List.foldl_nil,hlast]
    exact shift_or_low _

theorem ipv6_octets (bits : BitVec 128) : ipv6 (octets (.v6 bits)) = .v6 bits :=
  congrArg IpAddr.v6 ((foldl_bytes (k := 16) bits 16 (Nat.le_refl _)).trans (by simp))

theorem u64FromBeBytes_toBe (v : UInt64) : u64FromBeBytes (u64ToBeBytes v) = v := by
  have hbytes : u64ToBeBytes v =
      (List.range 8).map fun i => (⟨(v.toBitVec >>> (8 * (7 - i))).setWidth 8⟩ : UInt8) := by
    simp [List.range_succ,u64ToBeBytes,← UInt8.toBitVec_inj]
  have hhom : (u64ToBeBytes v).foldl (fun (acc : BitVec 64) b => acc <<< 8 ||| b.toBitVec.setWidth 64) 0 =
      ((u64ToBeBytes v).foldl (fun (acc : UInt64) b => acc <<< 8 ||| b.toUInt64) 0).toBitVec :=
    List.foldl_hom UInt64.toBitVec fun x y => by simp
  rw [← UInt64.toBitVec_inj,u64FromBeBytes,← hhom,hbytes]
  exact (foldl_bytes (k := 8) v.toBitVec 8 (Nat.le_refl _)).trans (by simp)

theorem decodeXor_eq (family : UInt8) (port : UInt16) (masked : Bytes) (transId : TransId) :
    decodeXor (([0,family] : Bytes) ++ u16ToBeBytes (port ^^^ 0x2112) ++ masked) transId =
      if family = 1 then xorBytes magic masked >>= fun bytes => .ok ⟨ipv4 bytes,port⟩
      else if family = 2 then xorBytes (magic ++ transId.bytes) masked >>= fun bytes => .ok ⟨ipv6 bytes,port⟩
      else .err (.parse s!"Invalid address family: {family}") := by
  have hport : u16FromBeBytes ((port ^^^ 0x2112) >>> 8).toUInt8 (port ^^^ 0x2112).toUInt8 ^^^ 0x2112 = port := by
    rw [Turn.u16FromBeBytes_toBe,UInt16.xor_assoc,UInt16.xor_self,UInt16.xor_zero]
  have hrest : (sliceFrom (0 :: family :: ((port ^^^ 0x2112) >>> 8).toUInt8 :: (port ^^^ 0x2112).toUInt8 :: masked) 4 :
      Outcome StunError Bytes) = .ok masked := sliceFrom_of_le (by simp)
  rw [decodeXor,u16ToBeBytes]
  simp only [List.cons_append,List.nil_append,hrest,ok_bind]
  simp only [index,List.getElem?_cons_zero,List.getElem?_cons_succ,ok_bind,hport]

theorem decodeXor_encodeXor (addr : SocketAddr) (transId : TransId) (rest : Bytes) :
    decodeXor (encodeXor addr transId ++ rest) transId = .ok addr := by
  obtain ⟨ip,port⟩ := addr
  cases ip with
  | v4 bits =>
    have hlen : (octets (.v4 bits)).length = magic.length := rfl
    rw [encodeXor,List.append_assoc,decodeXor_eq,if_pos rfl,xorBytes_zipWith hlen,ok_bind,ipv4_octets]
  | v6 bits =>
    have hlen : (octets (.v6 bits)).length = (magic ++ transId.bytes).length := by
      simp [octets,magic,transId.length_eq]
    have hfamily : ¬ (2 : UInt8) = 1 := by decide
    rw [encodeXor,List.append_assoc,decodeXor_eq,if_neg hfamily,if_pos rfl,xorBytes_zipWith hlen,ok_bind,
      ipv6_octets]

section Loop
variable (t : Target) (transId : TransId)

/-- From an offset on the loop takes one state to another, whatever else bounds its passes. -/
def Parses (off : ℕ) (buf : Bytes) (s s' : ParseState) : Prop :=
  4 ∣ buf.length ∧ ∀ fuel, buf.length < 4 * fuel → parseAttrs t transId fuel off buf s = .ok s'

variable {t transId} {off : ℕ} {rest : Bytes} {s s₁ s' : ParseState}

theorem Parses.nil : Parses t transId off [] s s := by
  refine ⟨⟨0,rfl⟩,fun fuel hfuel => ?_⟩
  cases fuel with
  | zero => cases hfuel
  | succ fuel => rw [parseAttrs,if_pos rfl]

theorem Parses.cons {typ : UInt16} {val : Bytes} (hval : val.length < 65536)
    (hattr : (if considered s.ignoreRest typ then
      onAttr t transId typ val.length off (encoded (typ,val) ++ rest) s else .ok s) = .ok s₁)
    (hrest : Parses t transId (off + (encoded (typ,val)).length) rest s₁ s') :
    Parses t transId off (encoded (typ,val) ++ rest) s s' := by
  have hlen := Turn.length_encoded typ val
  have halign : TlvWalk.align4 val.length = padLen val.length := by
    unfold TlvWalk.align4 padLen
    omega
  have hpad := padLen_dvd val.length
  have hle : val.length ≤ padLen val.length := Nat.le_add_right _ _
  rw [halign] at hlen
  have hdvd : 4 ∣ (encoded (typ,val) ++ rest).length := by
    rw [List.length_append,hlen]
    exact Nat.dvd_add (Nat.dvd_add ⟨1,rfl⟩ hpad) hrest.1
  have hheader : header (encoded (typ,val) ++ rest) = ⟨typ,val.length,encoded (typ,val) ++ rest⟩ := by
    have hat := Turn.attrAt_encoded typ [] rest hval
    have htyp := congrArg TlvWalk.Attr.typ hat
    have hvallen := congrArg TlvWalk.Attr.len hat
    exact congrArg₂ (Tlv.mk · · (encoded (typ,val) ++ rest)) htyp hvallen
  refine ⟨hdvd,fun fuel hfuel => ?_⟩
  rw [List.length_append,hlen] at hfuel
  cases fuel with
  | zero => cases hfuel
  | succ fuel =>
    have hne : encoded (typ,val) ++ rest ≠ [] := by
      rw [← List.length_pos_iff,List.length_append,hlen]
      omega
    rw [parseAttrs_succ t transId fuel off s hne hdvd,hheader,if_neg (by
      rw [List.length_append,hlen]
      simp only
      omega)]
    simp only
    rw [hattr,ok_bind,← hlen,List.drop_left]
    exact hrest.2 fuel (by omega)

theorem drop_encoded (typ : UInt16) (val rest : Bytes) :
    (encoded (typ,val) ++ rest).drop 4 = val ++ (List.replicate ((4 - val.length % 4) % 4) 0 ++ rest) := by
  rw [encoded,Turn.appendAttr]
  simp [u16ToBeBytes]

theorem four_le_encoded (typ : UInt16) (val rest : Bytes) : 4 ≤ (encoded (typ,val) ++ rest).length := by
  rw [List.length_append,Turn.length_encoded]
  omega

theorem sliceFrom_encoded (typ : UInt16) (val rest : Bytes) :
    (sliceFrom (encoded (typ,val) ++ rest) 4 : Outcome StunError Bytes) =
      .ok (val ++ (List.replicate ((4 - val.length % 4) % 4) 0 ++ rest)) := by
  rw [sliceFrom_of_le (four_le_encoded typ val rest),drop_encoded]

theorem slice_encoded (typ : UInt16) (val rest : Bytes) :
    (slice (encoded (typ,val) ++ rest) 4 (4 + val.length) : Outcome StunError Bytes) = .ok val := by
  have hfits : 4 + val.length ≤ (encoded (typ,val) ++ rest).length := by
    rw [List.length_append,Turn.length_encoded,TlvWalk.align4]
    omega
  rw [slice_of_le (Nat.le_add_right _ _) hfits,drop_encoded,Nat.add_sub_cancel_left,List.take_left]

theorem index_encoded (typ : UInt16) (val rest : Bytes) {i : ℕ} (hi : i < val.length) :
    (index (encoded (typ,val) ++ rest) (4 + i) : Outcome StunError UInt8) = .ok val[i] := by
  have hget : (encoded (typ,val) ++ rest)[4 + i]? = some val[i] := by
    rw [← List.getElem?_drop,drop_encoded,List.getElem?_append_left hi,List.getElem?_eq_getElem hi]
  rw [index,hget]

theorem u32_encoded (typ : UInt16) (v : UInt32) (rest : Bytes) (f : UInt32 → Outcome StunError ParseState) :
    (index (encoded (typ,u32ToBeBytes v) ++ rest) 4 >>= fun b₀ => index (encoded (typ,u32ToBeBytes v) ++ rest) 5 >>=
      fun b₁ => index (encoded (typ,u32ToBeBytes v) ++ rest) 6 >>= fun b₂ =>
        index (encoded (typ,u32ToBeBytes v) ++ rest) 7 >>= fun b₃ => f (u32FromBeBytes b₀ b₁ b₂ b₃)) = f v := by
  have hlen : (u32ToBeBytes v).length = 4 := rfl
  have h₀ := index_encoded typ (u32ToBeBytes v) rest (i := 0) (by omega)
  have h₁ := index_encoded typ (u32ToBeBytes v) rest (i := 1) (by omega)
  have h₂ := index_encoded typ (u32ToBeBytes v) rest (i := 2) (by omega)
  have h₃ := index_encoded typ (u32ToBeBytes v) rest (i := 3) (by omega)
  rw [h₀,ok_bind,h₁,ok_bind,h₂,ok_bind,h₃,ok_bind]
  exact congrArg f (Turn.u32FromBeBytes_toBe v)

theorem text?_toUTF8 (v : String) : text? v.toUTF8.toList = some v := by
  rw [text?,Turn.toList_eq,Array.toArray_toList]
  change String.fromUTF8? v.toByteArray = _
  rw [String.fromUTF8?,dif_pos v.isValidUTF8]
  rfl

section OnAttr
variable (t transId off rest s)

theorem onAttr_username {v : String} (hv : v.toUTF8.toList.length ≤ 128) :
    onAttr t transId 0x0006 v.toUTF8.toList.length off (encoded (0x0006,v.toUTF8.toList) ++ rest) s =
      .ok { s with attributes := { s.attributes with username := some v } } := by
  change (sliceFrom _ _ >>= fun buf => decodeStr _ buf _ >>= _) = _
  rw [sliceFrom_encoded,ok_bind,decodeStr,if_neg (Nat.not_lt.mpr hv),slice_front rfl]
  simp only [ok_bind,text?_toUTF8]

theorem onAttr_iceControlled (v : UInt64) :
    onAttr t transId 0x8029 (u64ToBeBytes v).length off (encoded (0x8029,u64ToBeBytes v) ++ rest) s =
      .ok { s with attributes := { s.attributes with iceControlled := some v } } := by
  change (slice _ 4 (4 + (u64ToBeBytes v).length) >>= _) = _
  rw [slice_encoded,ok_bind,u64FromBeBytes_toBe]

theorem onAttr_iceControlling (v : UInt64) :
    onAttr t transId 0x802a (u64ToBeBytes v).length off (encoded (0x802a,u64ToBeBytes v) ++ rest) s =
      .ok { s with attributes := { s.attributes with iceControlling := some v } } := by
  change (slice _ 4 (4 + (u64ToBeBytes v).length) >>= _) = _
  rw [slice_encoded,ok_bind,u64FromBeBytes_toBe]

theorem onAttr_priority (v : UInt32) :
    onAttr t transId 0x0024 (u32ToBeBytes v).length off (encoded (0x0024,u32ToBeBytes v) ++ rest) s =
      .ok { s with attributes := { s.attributes with priority := some v } } :=
  u32_encoded 0x0024 v rest fun v => .ok { s with attributes := { s.attributes with priority := some v } }

theorem onAttr_xorMappedAddress (v : SocketAddr) :
    onAttr t transId 0x0020 (encodeXor v transId).length off (encoded (0x0020,encodeXor v transId) ++ rest) s =
      .ok { s with attributes := { s.attributes with xorMappedAddress := some v } } := by
  change (sliceFrom _ _ >>= fun buf => decodeXor buf _ >>= _) = _
  rw [sliceFrom_encoded,ok_bind,decodeXor_encodeXor,ok_bind]

theorem onAttr_useCandidate :
    onAttr t transId 0x0025 ([] : Bytes).length off (encoded (0x0025,[]) ++ rest) s =
      .ok { s with attributes := { s.attributes with useCandidate := true } } := rfl

theorem onAttr_messageIntegrity {v : Bytes} (hv : v.length = 20) :
    onAttr t transId 0x0008 v.length off (encoded (0x0008,v) ++ rest) s =
      .ok ⟨{ s.attributes with messageIntegrity := some v },true,off⟩ := by
  have hslice := slice_encoded 0x0008 v rest
  rw [hv] at hslice ⊢
  change (slice _ 4 24 >>= _) = _
  rw [hslice,ok_bind]

theorem onAttr_fingerprint (v : UInt32) :
    onAttr t transId 0x8028 (u32ToBeBytes v).length off (encoded (0x8028,u32ToBeBytes v) ++ rest) s =
      .ok { s with attributes := { s.attributes with fingerprint := some v } } :=
  u32_encoded 0x8028 v rest fun v => .ok { s with attributes := { s.attributes with fingerprint := some v } }

end OnAttr

/-- USERNAME is followed by an empty attribute of type zero if it needs no padding. -/
theorem flatten_username (v : Bytes) :
    ([u16ToBeBytes 0x0006,u16ToBeBytes (UInt16.ofNat v.length),v] ++
        List.replicate (4 - v.length % 4 % 4) [0]).flatten =
      encoded (0x0006,v) ++ if v.length % 4 = 0 then encoded (0x0000,[]) else [] := by
  have hzeros : ∀ n, (List.replicate n ([0] : Bytes)).flatten = List.replicate n 0 := by
    intro n
    rw [List.flatten_replicate_singleton]
  have hempty : encoded (0x0000,[]) = List.replicate 4 0 := by decide
  rw [List.flatten_append,hzeros,Nat.mod_mod,encoded,Turn.appendAttr]
  simp only [List.flatten_cons,List.flatten_nil,List.append_nil,List.nil_append,List.append_assoc]
  split
  · rename_i h
    rw [hempty,h]
    rfl
  · rename_i h
    have hpad : (4 - v.length % 4) % 4 = 4 - v.length % 4 := by omega
    rw [hpad,List.append_nil]

section Written
variable (a : Attributes)

theorem Parses.optional {α : Type} (o : Option α) (f : α → Bytes) (g : Option α → Attributes)
    (hread : ∀ v, o = some v → Parses t transId (off + (f v).length) rest ⟨g (some v),false,0⟩ s' →
      Parses t transId off (f v ++ rest) ⟨g none,false,0⟩ s')
    (hrest : Parses t transId (off + (o.elim [] f).length) rest ⟨g o,false,0⟩ s') :
    Parses t transId off (o.elim [] f ++ rest) ⟨g none,false,0⟩ s' := by
  cases o with
  | none => exact hrest
  | some v => exact hread v rfl hrest

theorem flatten_elim {α : Type} (o : Option α) (f : α → List Bytes) :
    (o.elim [] f).flatten = o.elim [] fun v => (f v).flatten := by
  cases o <;> rfl

theorem flatten_attr (typ : UInt16) {len : UInt16} {val : Bytes} (hval : 4 ∣ val.length)
    (hlen : UInt16.ofNat val.length = len) :
    [u16ToBeBytes typ,u16ToBeBytes len,val].flatten = encoded (typ,val) := by
  rw [encoded,Turn.appendAttr,Nat.mod_eq_zero_of_dvd hval,hlen]
  simp

theorem flatten_toBytes (transId : TransId) : (a.toBytes transId).flatten =
    (a.username.elim [] fun v => encoded (0x0006,v.toUTF8.toList) ++
      if v.toUTF8.toList.length % 4 = 0 then encoded (0x0000,[]) else []) ++
    ((a.iceControlled.elim [] fun v => encoded (0x8029,u64ToBeBytes v)) ++
    ((a.iceControlling.elim [] fun v => encoded (0x802a,u64ToBeBytes v)) ++
    ((a.priority.elim [] fun v => encoded (0x0024,u32ToBeBytes v)) ++
    ((a.xorMappedAddress.elim [] fun v => encoded (0x0020,encodeXor v transId)) ++
    if a.useCandidate then encoded (0x0025,[]) else [])))) := by
  have hxor : ∀ v, 4 ∣ (encodeXor v transId).length := by
    intro v
    rw [length_encodeXor]
    split <;> decide
  have hu64 : ∀ v, (u64ToBeBytes v).length = 8 := fun _ => rfl
  have hu32 : ∀ v, (u32ToBeBytes v).length = 4 := fun _ => rfl
  have h8 : UInt16.ofNat 8 = 8 := by decide
  have h4 : UInt16.ofNat 4 = 4 := by decide
  rw [Attributes.toBytes,List.flatten_append,List.flatten_append,List.flatten_append,List.flatten_append,
    List.flatten_append,flatten_elim,flatten_elim,flatten_elim,flatten_elim,flatten_elim]
  simp only [List.append_assoc]
  refine congrArg₂ _ ?_ (congrArg₂ _ ?_ (congrArg₂ _ ?_ (congrArg₂ _ ?_ (congrArg₂ _ ?_ ?_))))
  · exact congrArg (a.username.elim []) (funext fun v => flatten_username _)
  · exact congrArg (a.iceControlled.elim [])
      (funext fun v => flatten_attr 0x8029 ⟨2,hu64 v⟩ (hu64 v ▸ h8))
  · exact congrArg (a.iceControlling.elim [])
      (funext fun v => flatten_attr 0x802a ⟨2,hu64 v⟩ (hu64 v ▸ h8))
  · exact congrArg (a.priority.elim [])
      (funext fun v => flatten_attr 0x0024 ⟨1,hu32 v⟩ (hu32 v ▸ h4))
  · exact congrArg (a.xorMappedAddress.elim []) (funext fun v => flatten_attr 0x0020 (hxor v) rfl)
  · split
    · decide
    · rfl

theorem Parses.present {a a' : Attributes} {typ : UInt16} {val : Bytes} (hval : val.length < 65536)
    (hattr : onAttr t transId typ val.length off (encoded (typ,val) ++ rest) ⟨a,false,0⟩ = .ok ⟨a',false,0⟩)
    (hrest : Parses t transId (off + (encoded (typ,val)).length) rest ⟨a',false,0⟩ s') :
    Parses t transId off (encoded (typ,val) ++ rest) ⟨a,false,0⟩ s' :=
  Parses.cons hval ((if_pos rfl).trans hattr) hrest

theorem onAttr_empty (buf : Bytes) (s : ParseState) :
    onAttr t transId 0x0000 ([] : Bytes).length off buf s = .ok s := rfl

theorem Parses.username {v : String} (hv : v.toUTF8.toList.length ≤ 128)
    (h : Parses t transId (off + (encoded (0x0006,v.toUTF8.toList) ++
        if v.toUTF8.toList.length % 4 = 0 then encoded (0x0000,[]) else []).length) rest
      ⟨{ a with username := some v },false,0⟩ s') :
    Parses t transId off ((encoded (0x0006,v.toUTF8.toList) ++
        if v.toUTF8.toList.length % 4 = 0 then encoded (0x0000,[]) else []) ++ rest) ⟨a,false,0⟩ s' := by
  rw [List.append_assoc]
  rw [List.length_append,← Nat.add_assoc] at h
  refine Parses.present (by omega) (onAttr_username t transId off _ ⟨a,false,0⟩ hv) ?_
  split
  · rename_i hdvd
    rw [if_pos hdvd] at h
    exact Parses.present (by simp) (onAttr_empty _ _) h
  · rename_i hdvd
    rw [if_neg hdvd] at h
    exact h

theorem Parses.attributes (hplain : a = {
      username := a.username
      iceControlled := a.iceControlled
      iceControlling := a.iceControlling
      priority := a.priority
      xorMappedAddress := a.xorMappedAddress
      useCandidate := a.useCandidate })
    (hname : ∀ v, a.username = some v → v.toUTF8.toList.length ≤ 128)
    (h : Parses t transId (off + a.paddedLen) rest ⟨a,false,0⟩ s') :
    Parses t transId off ((a.toBytes transId).flatten ++ rest) ⟨{},false,0⟩ s' := by
  have hu64 : ∀ v, (u64ToBeBytes v).length < 65536 := by simp [u64ToBeBytes]
  have hu32 : ∀ v, (u32ToBeBytes v).length < 65536 := by simp [u32ToBeBytes]
  have hxor : ∀ v, (encodeXor v transId).length < 65536 := by
    intro v
    rw [length_encodeXor]
    split <;> decide
  rw [← Attributes.length_toBytes a transId,flatten_toBytes,List.length_append,List.length_append,
    List.length_append,List.length_append,List.length_append,← Nat.add_assoc,← Nat.add_assoc,← Nat.add_assoc,
    ← Nat.add_assoc,← Nat.add_assoc] at h
  rw [flatten_toBytes,List.append_assoc,List.append_assoc,List.append_assoc,List.append_assoc,List.append_assoc]
  refine Parses.optional a.username _ (fun o => { username := o })
    (fun v hv => Parses.username {} (hname v hv)) ?_
  refine Parses.optional a.iceControlled _ (fun o => { username := a.username, iceControlled := o })
    (fun v _ => Parses.present (hu64 v) (onAttr_iceControlled t transId _ _ _ v)) ?_
  refine Parses.optional a.iceControlling _
    (fun o => { username := a.username, iceControlled := a.iceControlled, iceControlling := o })
    (fun v _ => Parses.present (hu64 v) (onAttr_iceControlling t transId _ _ _ v)) ?_
  refine Parses.optional a.priority _ (fun o => {
      username := a.username, iceControlled := a.iceControlled, iceControlling := a.iceControlling, priority := o })
    (fun v _ => Parses.present (hu32 v) (onAttr_priority t transId _ _ _ v)) ?_
  refine Parses.optional a.xorMappedAddress _ (fun o => {
      username := a.username, iceControlled := a.iceControlled, iceControlling := a.iceControlling
      priority := a.priority, xorMappedAddress := o })
    (fun v _ => Parses.present (hxor v) (onAttr_xorMappedAddress t transId _ _ _ v)) ?_
  cases huse : a.useCandidate with
  | true =>
    rw [huse,if_pos rfl] at h
    rw [huse] at hplain
    rw [if_pos rfl]
    refine Parses.present (by simp) (onAttr_useCandidate t transId _ _ _) ?_
    rw [← hplain]
    exact h
  | false =>
    rw [huse,if_neg Bool.false_ne_true] at h
    rw [huse] at hplain
    rw [if_neg Bool.false_ne_true,← hplain]
    exact h

end Written

end Loop

theorem slice_middle {ε : Type} (front middle back : Bytes) (i j : ℕ) (hi : front.length = i)
    (hj : i + middle.length = j) : (slice (front ++ middle ++ back) i j : Outcome ε Bytes) = .ok middle := by
  subst hi
  subst hj
  have hfits : front.length + middle.length ≤ (front ++ middle ++ back).length := by
    simp only [List.length_append]
    omega
  rw [slice_of_le (Nat.le_add_right _ _) hfits,Nat.add_sub_cancel_left,List.append_assoc,List.drop_left,
    List.take_left]

theorem and_three_of_dvd {n : ℕ} (hlt : n < 65536) (hdvd : 4 ∣ n) : UInt16.ofNat n &&& 3 = 0 := by
  rw [← UInt16.toNat_inj,UInt16.toNat_and,UInt16.toNat_ofNat_of_lt' hlt]
  exact (Nat.and_two_pow_sub_one_eq_mod n 2).trans (Nat.mod_eq_zero_of_dvd hdvd)

namespace Message
variable {m : Message} (t : Target) (password : String)

theorem typ_cases (m : Message) : m.typ = 0x0001 ∨ m.typ = 0x0101 := by
  unfold typ
  split
  · exact .inl rfl
  · exact .inr rfl

/-- What is left of parsing behind a good header. -/
theorem parse_header (m : Message) {body : Bytes} (hlt : body.length < 65536) (hdvd : 4 ∣ body.length) :
    Message.parse t (stunHeader m.typ (UInt16.ofNat body.length) m.transId.bytes ++ body) =
      parseAttrs t m.transId (body.length + 1) 0 body {} >>= fun s =>
        if s.msgIntegrityOff = 0 then .err (.parse "No message integrity in incoming")
        else slice (stunHeader m.typ (UInt16.ofNat body.length) m.transId.bytes ++ body) 0 (s.msgIntegrityOff + 20) >>=
          fun integrity => Message.complete {
            cls := .fromTyp m.typ
            method := .fromTyp m.typ
            transId := m.transId
            attrs := s.attributes
            integrity
            integrityLen := UInt16.ofNat (s.msgIntegrityOff + 4 + 20) } := by
  have hlen : (stunHeader m.typ (UInt16.ofNat body.length) m.transId.bytes ++ body).length = 20 + body.length := by
    rw [List.length_append,Turn.length_stunHeader _ _ m.transId.length_eq]
  have hmagic : (slice (stunHeader m.typ (UInt16.ofNat body.length) m.transId.bytes ++ body) 4 8 :
      Outcome StunError Bytes) = .ok magic := by
    have hslice := slice_middle (ε := StunError) (u16ToBeBytes m.typ ++ u16ToBeBytes (UInt16.ofNat body.length)) magic
      (m.transId.bytes ++ body) 4 8 rfl rfl
    rw [← hslice,stunHeader,← List.append_assoc]
    rfl
  have htrans : (slice (stunHeader m.typ (UInt16.ofNat body.length) m.transId.bytes ++ body) 8 20 :
      Outcome StunError Bytes) = .ok m.transId.bytes :=
    slice_middle _ _ _ 8 20 rfl (by rw [m.transId.length_eq])
  have hid : (TransId.fromSlice m.transId.bytes : Outcome StunError TransId) = .ok m.transId :=
    dif_pos m.transId.length_eq
  have hbody : (sliceFrom (stunHeader m.typ (UInt16.ofNat body.length) m.transId.bytes ++ body) 20 :
      Outcome StunError Bytes) = .ok body := by
    rw [sliceFrom_of_le (by omega),← Turn.length_stunHeader m.typ (UInt16.ofNat body.length) m.transId.length_eq,
      List.drop_left]
  have h₀ : (index (stunHeader m.typ (UInt16.ofNat body.length) m.transId.bytes ++ body) 0 :
      Outcome StunError UInt8) = .ok (m.typ >>> 8).toUInt8 := rfl
  have h₁ : (index (stunHeader m.typ (UInt16.ofNat body.length) m.transId.bytes ++ body) 1 :
      Outcome StunError UInt8) = .ok m.typ.toUInt8 := rfl
  have h₂ : (index (stunHeader m.typ (UInt16.ofNat body.length) m.transId.bytes ++ body) 2 :
      Outcome StunError UInt8) = .ok (UInt16.ofNat body.length >>> 8).toUInt8 := rfl
  have h₃ : (index (stunHeader m.typ (UInt16.ofNat body.length) m.transId.bytes ++ body) 3 :
      Outcome StunError UInt8) = .ok (UInt16.ofNat body.length).toUInt8 := rfl
  have htyp : u16FromBeBytes ((m.typ >>> 8).toUInt8 &&& 0x3F) m.typ.toUInt8 = m.typ := by
    rcases m.typ_cases with h | h <;> rw [h] <;> decide
  have hzero : ¬ UInt16.ofNat body.length &&& 3 > 0 := by
    rw [and_three_of_dvd hlt hdvd]
    decide
  have hcount : ¬ (UInt16.ofNat body.length).toNat ≠ 20 + body.length - 20 := by
    rw [UInt16.toNat_ofNat_of_lt' hlt]
    omega
  rw [Message.parse,if_neg (by omega),h₀,h₁,h₂,h₃,t.sub_of_le (by omega),hmagic,htrans,hbody,hlen]
  simp only [ok_bind,Turn.u16FromBeBytes_toBe,htyp,hid]
  rw [if_neg hzero,if_neg hcount,if_neg (not_not.mpr rfl)]

/-- A request has a user name, and a success an address. -/
theorem paddedLen_pos (hm : m.Sendable) : 0 < m.attrs.paddedLen := by
  have hcomplete := hm.complete
  rw [Message.complete,hm.method] at hcomplete
  unfold Attributes.paddedLen
  rcases hm.cls with h | h
  · rw [h] at hcomplete
    cases hname : m.attrs.username with
    | none => simp [Attributes.splitUsername,hname] at hcomplete
    | some v => simp only [Option.elim_some]; omega
  · rw [h] at hcomplete
    cases haddr : m.attrs.xorMappedAddress with
    | none => simp [haddr] at hcomplete
    | some addr => simp only [Option.elim_some]; omega

theorem fromTyp_typ (hm : m.Sendable) : Class.fromTyp m.typ = m.cls ∧ Method.fromTyp m.typ = m.method := by
  rw [hm.method]
  rcases hm.cls with h | h <;> rw [typ,h] <;> decide

/-- What a message has to consist of in order to be accepted. -/
theorem complete_iff (m : Message) : m.complete = .ok m ↔
    (m.method = .binding ∧ m.cls = .success → m.attrs.xorMappedAddress.isSome) ∧
    (m.method = .binding ∧ m.cls = .request → m.attrs.splitUsername.isSome ∧ m.attrs.priority.isSome) := by
  have hne : ∀ {c c' : Class}, c ≠ c' → m.cls = c → ¬ (m.method = .binding ∧ m.cls = c') :=
    fun hne h h' => hne (h.symm.trans h'.2)
  unfold Message.complete
  by_cases hsuccess : m.method = .binding ∧ m.cls = .success
  · rw [if_pos hsuccess]
    have hrequest : ¬ (m.method = .binding ∧ m.cls = .request) := hne (by decide) hsuccess.2
    cases haddr : m.attrs.xorMappedAddress <;> simp [hsuccess]
  · rw [if_neg hsuccess]
    by_cases hrequest : m.method = .binding ∧ m.cls = .request
    · rw [if_pos hrequest]
      cases hname : m.attrs.splitUsername <;> cases hprio : m.attrs.priority <;> simp [hrequest]
    · rw [if_neg hrequest]
      exact ⟨fun _ => ⟨fun h => absurd h hsuccess,fun h => absurd h hrequest⟩,fun _ => rfl⟩

theorem sendable_reply (transId : TransId) (mappedAddress : SocketAddr) : (reply transId mappedAddress).Sendable where
  cls := .inr rfl
  method := rfl
  attrs := rfl
  username := fun _ h => nomatch h
  complete := rfl

theorem sendable_bindingRequest {username : String} (hlen : username.toUTF8.toList.length ≤ 128)
    (hsplit : (Attributes.splitUsername { username := some username }).isSome) (transId : TransId)
    (controlling : Bool) (controlTieBreaker : UInt64) (prio : UInt32) (useCandidate : Bool) :
    (bindingRequest username transId controlling controlTieBreaker prio useCandidate).Sendable where
  cls := .inl rfl
  method := rfl
  attrs := rfl
  username := fun _ h => Option.some.inj h ▸ hlen
  complete := (complete_iff _).mpr ⟨fun h => (nomatch h.2),fun _ => ⟨hsplit,rfl⟩⟩

section Sealed
variable [Crates]

/-- The attributes with those that the message ends with. -/
def signedAttrs (m : Message) (password : String) : Attributes :=
  { m.attrs with messageIntegrity := some (m.mac password), fingerprint := some (m.crc password) }

theorem parses_wire (hm : m.Sendable) : Parses t m.transId 0 ((m.attrs.toBytes m.transId).flatten ++
      (encoded (0x0008,m.mac password) ++ encoded (0x8028,u32ToBeBytes (m.crc password)))) ⟨{},false,0⟩
    ⟨m.signedAttrs password,true,m.attrs.paddedLen⟩ := by
  have hmac : (m.mac password).length < 65536 := by
    rw [length_mac]
    decide
  have hcrc : (u32ToBeBytes (m.crc password)).length < 65536 := by simp [u32ToBeBytes]
  have hconsidered : considered true 0x8028 = true := by decide
  have hend : encoded (0x8028,u32ToBeBytes (m.crc password)) =
      encoded (0x8028,u32ToBeBytes (m.crc password)) ++ [] := (List.append_nil _).symm
  refine Parses.attributes m.attrs hm.attrs hm.username ?_
  rw [Nat.zero_add,hend]
  refine Parses.cons hmac ((if_pos rfl).trans (onAttr_messageIntegrity t m.transId _ _ ⟨m.attrs,false,0⟩
    (length_mac password))) ?_
  exact Parses.cons hcrc ((if_pos hconsidered).trans (onAttr_fingerprint t m.transId _ _ _ _)) Parses.nil

def received (m : Message) (password : String) : Message where
  cls := m.cls
  method := m.method
  transId := m.transId
  attrs := m.signedAttrs password
  integrity := m.front 32
  integrityLen := UInt16.ofNat (m.attrs.paddedLen + 4 + 20)

theorem complete_received (hm : m.Sendable) : (m.received password).complete = .ok (m.received password) :=
  (complete_iff _).mpr ((complete_iff m).mp hm.complete)

theorem parse_wire (hm : m.Sendable) : Message.parse t (m.wire password) = .ok (m.received password) := by
  have hparses := parses_wire t password hm
  have hlen : ((m.attrs.toBytes m.transId).flatten ++ (encoded (0x0008,m.mac password) ++
      encoded (0x8028,u32ToBeBytes (m.crc password)))).length = m.attrs.paddedLen + 32 := by
    have hcrc : (u32ToBeBytes (m.crc password)).length = 4 := rfl
    have halign : TlvWalk.align4 20 = 20 ∧ TlvWalk.align4 4 = 4 := by decide
    rw [List.length_append,List.length_append,Attributes.length_toBytes,Turn.length_encoded,Turn.length_encoded,
      length_mac,hcrc,halign.1,halign.2]
  have hwire : m.wire password = stunHeader m.typ (UInt16.ofNat (m.attrs.paddedLen + 32)) m.transId.bytes ++
      ((m.attrs.toBytes m.transId).flatten ++ (encoded (0x0008,m.mac password) ++
        encoded (0x8028,u32ToBeBytes (m.crc password)))) := by
    rw [wire,authenticated,front]
    simp only [List.append_assoc]
  have hle := paddedLen_le hm
  have hpos := paddedLen_pos hm
  have hheader := parse_header t m (by rw [hlen]; omega) hparses.1
  rw [hlen,← hwire] at hheader
  have hslice : (slice (m.wire password) 0 (m.attrs.paddedLen + 20) : Outcome StunError Bytes) = .ok (m.front 32) := by
    rw [wire,authenticated,List.append_assoc]
    exact slice_front (by rw [length_front]; omega)
  rw [hheader,hparses.2 _ (by rw [hlen]; omega),ok_bind]
  simp only
  rw [if_neg (by omega),hslice,ok_bind,(fromTyp_typ hm).1,(fromTyp_typ hm).2]
  exact complete_received password hm

/-- The message authenticates itself under a password as its MAC does. -/
theorem checkIntegrity_received {ε : Type} (password' : String) :
    ((m.received password).checkIntegrity password' : Outcome ε Bool) =
      .ok (m.mac password' = m.mac password) := by
  have hfront : m.front 32 = u16ToBeBytes m.typ ++ u16ToBeBytes (UInt16.ofNat (m.attrs.paddedLen + 32)) ++
      (u32ToBeBytes Turn.stunMagic ++ (m.transId.bytes ++ (m.attrs.toBytes m.transId).flatten)) := by
    rw [front,stunHeader]
    simp only [List.append_assoc]
  have hhead : (slice (m.front 32) 0 2 : Outcome ε Bytes) = .ok (u16ToBeBytes m.typ) := by
    rw [hfront,List.append_assoc]
    exact slice_front rfl
  have htail : (sliceFrom (m.front 32) 4 : Outcome ε Bytes) =
      .ok (u32ToBeBytes Turn.stunMagic ++ (m.transId.bytes ++ (m.attrs.toBytes m.transId).flatten)) := by
    rw [sliceFrom_of_le (by rw [length_front]; omega),hfront]
    rfl
  have hsigned : sha1Hmac password'.toUTF8.toList [u16ToBeBytes m.typ,
      u16ToBeBytes (UInt16.ofNat (m.attrs.paddedLen + 4 + 20)),
      u32ToBeBytes Turn.stunMagic ++ (m.transId.bytes ++ (m.attrs.toBytes m.transId).flatten)] = m.mac password' := by
    rw [mac,sha1Hmac_pieces,front,stunHeader]
    simp only [List.flatten_cons,List.flatten_nil,List.append_nil,List.append_assoc]
  change (slice (m.front 32) 0 2 >>= fun front => sliceFrom (m.front 32) 4 >>= fun back => _) = _
  rw [hhead,ok_bind,htail,ok_bind]
  exact congrArg (fun mac => Outcome.ok (decide (mac = m.mac password))) hsigned

/-- What is sent is a message for the parser: the same one, which authenticates itself under the password that it
has been written with. The rest of the buffer stays as it is. -/
theorem written_and_read (hm : m.Sendable) (buf : Bytes) :
    m.size ≤ 248 ∧ (buf.length < m.size → m.toBytes password buf = .err .io) ∧
    (m.size ≤ buf.length → ∃ sent m',
      m.toBytes password buf = .ok (sent,m.size) ∧ sent.length = buf.length ∧ sent.drop m.size = buf.drop m.size ∧
      Message.parse t (sent.take m.size) = .ok m' ∧
      m'.cls = m.cls ∧ m'.method = m.method ∧ m'.transId = m.transId ∧
      m'.attrs = { m.attrs with messageIntegrity := some (m.mac password), fingerprint := some (m.crc password) } ∧
      ∀ password', (m'.checkIntegrity password' : Outcome StunError Bool) =
        .ok (m.mac password' = m.mac password)) := by
  have hwire : (m.wire password).length = m.size := length_wire password
  refine ⟨?_,fun hshort => ?_,fun hfits => ?_⟩
  · have hle := paddedLen_le hm
    rw [size]
    omega
  · rw [toBytes_eq password hm,if_neg (Nat.not_le.mpr hshort)]
  · refine ⟨m.wire password ++ buf.drop m.size,m.received password,?_,?_,?_,?_,rfl,rfl,rfl,rfl,
      checkIntegrity_received password⟩
    · rw [toBytes_eq password hm,if_pos hfits]
    · rw [List.length_append,hwire,List.length_drop]
      omega
    · rw [← hwire,List.drop_left]
    · rw [← hwire,List.take_left]
      exact parse_wire t password hm

end Sealed

/-- The answer to a request from 10.0.0.1, in a buffer of a hundred bytes. -/
theorem written_and_read_reply : letI := specifiedCrates
    ∃ sent m', (reply ⟨List.replicate 12 7,rfl⟩ ⟨.v4 0x0A000001,4711⟩).toBytes "secret" (List.replicate 100 0) =
        .ok (sent,64) ∧
      Message.parse ⟨false,4294967296,Nat.le_refl _⟩ (sent.take 64) = .ok m' ∧
      m'.attrs.xorMappedAddress = some ⟨.v4 0x0A000001,4711⟩ ∧
      (m'.checkIntegrity "secret" : Outcome StunError Bool) = .ok true := by
  let := specifiedCrates
  obtain ⟨sent,m',hsent,_,_,hparse,_,_,_,hattrs,hmac⟩ :=
    (written_and_read ⟨false,4294967296,Nat.le_refl _⟩ "secret"
      (sendable_reply ⟨List.replicate 12 7,rfl⟩ ⟨.v4 0x0A000001,4711⟩) (List.replicate 100 0)).2.2 (by decide)
  refine ⟨sent,m',hsent,hparse,?_,?_⟩
  · rw [hattrs]
    rfl
  · rw [hmac,decide_eq_true rfl]

end Message

end Stun
end AnyKvm
