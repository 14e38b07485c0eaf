import Mathlib.Data.List.Induction
import AnyKvm.TlvWalk

/-! `webrtc.rs`: what `parse_turn_data` takes out of a datagram of the TURN server.
The parser is compared with the list of attributes: the last peer address that can be read and
the last DATA attribute. -/
namespace AnyKvm
namespace Turn

open Outcome Bytes TlvWalk

inductive IpAddr
  | v4 (bits : UInt32)
  | v6 (bits : BitVec 128)
  deriving DecidableEq, Repr

structure SocketAddr where
  ip : IpAddr
  port : UInt16
  deriving DecidableEq, Repr

def stunMagic : UInt32 := 0x2112A442

def parseXorMapped (val : Bytes) : Outcome String SocketAddr :=
  if val.length < 8 then .err "XOR-MAPPED-ADDRESS too short"
  else do
    let family ← index val 1
    let xPort := u16FromBeBytes (← index val 2) (← index val 3)
    let port := xPort ^^^ (stunMagic >>> 16).toUInt16
    if family = 0x01 then do
      let xAddr := u32FromBeBytes (← index val 4) (← index val 5) (← index val 6) (← index val 7)
      .ok ⟨.v4 (xAddr ^^^ stunMagic),port⟩
    else .err s!"unsupported address family {family}"

structure Found where
  peerAddr : Option SocketAddr
  dataRange : Option (ℕ × ℕ)

def onTurnAttr (pkt : Bytes) (attr : Attr) (s : Found) : Panicking (ForInStep Found) :=
  if attr.typ = 0x0012 then do
    let val ← slice pkt attr.start (attr.start + attr.len)
    match ← (parseXorMapped val).attempt with
    | some addr => .ok (.yield { s with peerAddr := some addr })
    | none => .ok (.yield s)
  else if attr.typ = 0x0013 then
    .ok (.yield { s with dataRange := some (attr.start,attr.start + attr.len) })
  else .ok (.yield s)

def parseTurnData (pkt : Bytes) : Panicking (Option (SocketAddr × Bytes)) :=
  if pkt.length < 20 then .ok none
  else do
    let msgType := u16FromBeBytes (← index pkt 0) (← index pkt 1)
    if msgType ≠ 0x0017 then .ok none
    else do
      let cookie := u32FromBeBytes (← index pkt 4) (← index pkt 5) (← index pkt 6) (← index pkt 7)
      if cookie ≠ stunMagic then .ok none
      else do
        let msgLen := (u16FromBeBytes (← index pkt 2) (← index pkt 3)).toNat
        let stop := min (20 + msgLen) pkt.length
        match ← walk pkt stop (onTurnAttr pkt) pkt.length 20 ⟨none,none⟩ with
        | ⟨some addr,some (start,stop)⟩ => do
          let data ← slice pkt start stop
          .ok (some (addr,data))
        | _ => .ok none

/-- The IPv4 address in the value of an XOR-MAPPED-ADDRESS or XOR-PEER-ADDRESS. -/
def xorMapped? (val : Bytes) : Option SocketAddr :=
  if 8 ≤ val.length ∧ val.getD 1 0 = 0x01 then
    some ⟨.v4 (u32FromBeBytes (val.getD 4 0) (val.getD 5 0) (val.getD 6 0) (val.getD 7 0) ^^^ stunMagic),
      u16FromBeBytes (val.getD 2 0) (val.getD 3 0) ^^^ (stunMagic >>> 16).toUInt16⟩
  else none

def last? {α β : Type} (f : α → Option β) (as : List α) : Option β := (as.filterMap f).getLast?

def peer? (pkt : Bytes) (attr : Attr) : Option SocketAddr :=
  if attr.typ = 0x0012 then xorMapped? (value pkt attr) else none

def data? (attr : Attr) : Option Attr := if attr.typ = 0x0013 then some attr else none

/-- The header of a Data indication. -/
def isDataIndication (pkt : Bytes) : Bool :=
  20 ≤ pkt.length && u16FromBeBytes (pkt.getD 0 0) (pkt.getD 1 0) == 0x0017 &&
    u32FromBeBytes (pkt.getD 4 0) (pkt.getD 5 0) (pkt.getD 6 0) (pkt.getD 7 0) == stunMagic

/-- The attributes of a message within its declared length. -/
def messageAttrs (pkt : Bytes) : List Attr :=
  attrs pkt (min (20 + (u16FromBeBytes (pkt.getD 2 0) (pkt.getD 3 0)).toNat) pkt.length) pkt.length 20

/-- What a Data indication relays: the last readable peer address and the last DATA. -/
def relayed? (pkt : Bytes) : Option (SocketAddr × Bytes) :=
  if isDataIndication pkt then
    match last? (peer? pkt) (messageAttrs pkt),last? data? (messageAttrs pkt) with
    | some addr,some attr => some (addr,value pkt attr)
    | _,_ => none
  else none

theorem parseXorMapped_attempt {δ : Type} (val : Bytes) :
    ((parseXorMapped val).attempt : Outcome δ _) = .ok (xorMapped? val) := by
  unfold parseXorMapped xorMapped?
  by_cases h : val.length < 8
  · rw [if_pos h,if_neg fun hc => absurd hc.1 (Nat.not_le.mpr h)]
    rfl
  · rw [if_neg h]
    have h' : 8 ≤ val.length := Nat.not_lt.mp h
    have read : ∀ i, i < 8 → (index val i : Outcome String UInt8) = .ok (val.getD i 0) :=
      fun i hi => index_of_lt (Nat.lt_of_lt_of_le hi h')
    rw [read 1 (by omega),read 2 (by omega),read 3 (by omega),read 4 (by omega),read 5 (by omega),
      read 6 (by omega),read 7 (by omega)]
    simp only [ok_bind,h',true_and]
    split <;> rfl

def found (pkt : Bytes) (s : Found) (attr : Attr) : Found where
  peerAddr := (peer? pkt attr).or s.peerAddr
  dataRange := ((data? attr).map fun attr => (attr.start,attr.start + attr.len)).or s.dataRange

theorem onTurnAttr_eq {pkt : Bytes} {attr : Attr} (h : attr.start + attr.len ≤ pkt.length)
    (s : Found) : onTurnAttr pkt attr s = .ok (.yield (found pkt s attr)) := by
  unfold onTurnAttr found peer? data?
  by_cases hpeer : attr.typ = 0x0012
  · have hdata : attr.typ ≠ 0x0013 := by
      rw [hpeer]
      decide
    rw [if_pos hpeer,if_pos hpeer,if_neg hdata,slice_of_le (Nat.le_add_right _ _) h,ok_bind,
      parseXorMapped_attempt,ok_bind,Nat.add_sub_cancel_left,value]
    cases xorMapped? ((pkt.drop attr.start).take attr.len) <;> rfl
  · rw [if_neg hpeer,if_neg hpeer]
    split <;> rfl

theorem last?_snoc {α β : Type} (f : α → Option β) (as : List α) (a : α) :
    last? f (as ++ [a]) = (f a).or (last? f as) := by
  unfold last?
  cases h : f a with
  | none => simp [h]
  | some b => simp [h]

theorem foldl_found (pkt : Bytes) (as : List Attr) :
    as.foldl (found pkt) ⟨none,none⟩ =
      ⟨last? (peer? pkt) as,(last? data? as).map fun attr => (attr.start,attr.start + attr.len)⟩ := by
  induction as using List.reverseRecOn with
  | nil => rfl
  | append_singleton as attr ih =>
    rw [List.foldl_append,ih,last?_snoc,last?_snoc]
    cases hdata : data? attr <;> simp [found,hdata]

theorem mem_of_last? {α : Type} {f : α → Option α} (hf : ∀ a b, f a = some b → b = a) {as : List α}
    {b : α} (h : last? f as = some b) : b ∈ as := by
  obtain ⟨a,ha,hab⟩ := List.mem_filterMap.mp (List.mem_of_getLast? h)
  rwa [hf a b hab]

/-- `parse_turn_data` never panics, and gives what the attributes of the indication say. -/
theorem parseTurnData_eq (pkt : Bytes) : parseTurnData pkt = .ok (relayed? pkt) := by
  unfold parseTurnData relayed? isDataIndication
  by_cases hlen : pkt.length < 20
  · have h : ¬ 20 ≤ pkt.length := Nat.not_le.mpr hlen
    simp [hlen,h]
  · have hlen' : 20 ≤ pkt.length := Nat.not_lt.mp hlen
    have read : ∀ i, i < 20 → (index pkt i : Panicking UInt8) = .ok (pkt.getD i 0) :=
      fun i hi => index_of_lt (Nat.lt_of_lt_of_le hi hlen')
    rw [if_neg hlen,read 0 (by omega),read 1 (by omega),read 2 (by omega),read 3 (by omega),
      read 4 (by omega),read 5 (by omega),read 6 (by omega),read 7 (by omega)]
    simp only [ok_bind]
    by_cases htype : u16FromBeBytes (pkt.getD 0 0) (pkt.getD 1 0) = 0x0017
    · by_cases hcookie :
        u32FromBeBytes (pkt.getD 4 0) (pkt.getD 5 0) (pkt.getD 6 0) (pkt.getD 7 0) = stunMagic
      · rw [if_neg (not_not.mpr htype),if_neg (not_not.mpr hcookie)]
        rw [walk_eq_forIn _ (Nat.min_le_right _ _) _ _ (by omega) (by omega),
          forIn_eq_foldl fun attr hattr s => onTurnAttr_eq (attrs_within hattr) s,foldl_found]
        simp only [hlen',htype,hcookie,decide_true,beq_self_eq_true,Bool.and_self,if_true,ok_bind]
        change _ = Outcome.ok (match last? (peer? pkt) (messageAttrs pkt),
          last? data? (messageAttrs pkt) with
          | some addr,some attr => some (addr,value pkt attr)
          | _,_ => none)
        change (match Found.mk (last? (peer? pkt) (messageAttrs pkt))
          ((last? data? (messageAttrs pkt)).map _) with
          | ⟨some addr,some (start,stop)⟩ => _
          | _ => _) = _
        cases hpeer : last? (peer? pkt) (messageAttrs pkt) with
        | none => rfl
        | some addr =>
          cases hdata : last? data? (messageAttrs pkt) with
          | none => rfl
          | some attr =>
            have hmem : attr ∈ messageAttrs pkt := by
              refine mem_of_last? ?_ hdata
              intro a b h
              unfold data? at h
              split at h
              · exact (Option.some.inj h).symm
              · cases h
            change (slice pkt attr.start (attr.start + attr.len) >>= _) = _
            rw [slice_of_le (Nat.le_add_right _ _) (attrs_within hmem),ok_bind,
              Nat.add_sub_cancel_left]
            rfl
      · rw [if_neg (not_not.mpr htype),if_pos hcookie]
        simp only [beq_false_of_ne hcookie,Bool.and_false]
        rfl
    · rw [if_pos htype]
      simp only [beq_false_of_ne htype,Bool.and_false,Bool.false_and]
      rfl

end Turn
end AnyKvm
