import AnyKvm.LongTermKey
import AnyKvm.Sha1
import AnyKvm.StunSafety

/-! `stun.rs`: how a STUN message is written, and what the parser reads when it gets what has been written.
The padding of USERNAME is four bytes where none is needed; they are read as an attribute of type zero. -/
namespace AnyKvm
namespace Stun

open Outcome Bytes
open Turn (IpAddr SocketAddr u16ToBeBytes u32ToBeBytes u64ToBeBytes stunHeader encoded encodedAll)

/-- `StunError::Io`: a write that does not fit into the buffer. -/
inductive WriteError
  | io
  deriving DecidableEq, Repr

def Class.toU16 : Class → Outcome WriteError UInt16
  | .request => .ok 0x0000
  | .indication => .ok 0x0010
  | .success => .ok 0x0100
  | .failure => .ok 0x0110
  | .unknown => .panicked

def Method.toU16 : Method → Outcome WriteError UInt16
  | .binding => .ok 0x0001
  | .unknown => .panicked

/-- `io::Cursor` over a slice. -/
structure Cursor where
  buf : Bytes
  pos : ℕ
  deriving DecidableEq, Repr

def Cursor.writeAll (c : Cursor) (bytes : Bytes) : Outcome WriteError Cursor :=
  if c.pos + bytes.length ≤ c.buf.length then
    .ok ⟨c.buf.take c.pos ++ bytes ++ c.buf.drop (c.pos + bytes.length),c.pos + bytes.length⟩
  else .err .io

/-- `buf[i..i + bytes.len()].copy_from_slice(bytes)`. -/
def copyFromSlice (buf : Bytes) (i : ℕ) (bytes : Bytes) : Outcome WriteError Bytes :=
  if i + bytes.length ≤ buf.length then .ok (buf.take i ++ bytes ++ buf.drop (i + bytes.length))
  else .panicked

/-- What `to_bytes` and `check_integrity` rely on of other crates: the HMAC-SHA1 of `hmac` and `sha1`, which takes
its message in pieces, and the CRC-32/ISO-HDLC of `crc`. -/
class Crates where
  Mac : Type
  newFromSlice : Bytes → Mac
  update : Mac → Bytes → Mac
  finalize : Mac → Bytes
  checksum : Bytes → UInt32
  update_append : ∀ mac a b, update (update mac a) b = update mac (a ++ b)
  length_finalize : ∀ mac, (finalize mac).length = 20

/-- `crypto::sha1_hmac`; every length of a key is good. -/
def sha1Hmac [Crates] (key : Bytes) (payloads : List Bytes) : Bytes :=
  Crates.finalize (payloads.foldl Crates.update (Crates.newFromSlice key))

def octets : IpAddr → Bytes
  | .v4 bits => u32ToBeBytes bits
  | .v6 bits => (List.range 16).map fun i => ⟨(bits >>> (8 * (15 - i))).setWidth 8⟩

def encodeXor (addr : SocketAddr) (transId : TransId) : Bytes :=
  let port := u16ToBeBytes (addr.port ^^^ 0x2112)
  match addr.ip with
  | .v4 _ => [0,1] ++ port ++ (octets addr.ip).zipWith (· ^^^ ·) magic
  | .v6 _ => [0,2] ++ port ++ (octets addr.ip).zipWith (· ^^^ ·) (magic ++ transId.bytes)

namespace Attributes
variable (a : Attributes)

def paddedLen : ℕ :=
  (a.username.elim 0 fun v =>
    let len := v.toUTF8.toList.length
    4 + len + (4 - len % 4 % 4)) +
  (a.iceControlled.elim 0 fun _ => 4 + 8) +
  (a.iceControlling.elim 0 fun _ => 4 + 8) +
  (a.priority.elim 0 fun _ => 4 + 4) +
  (a.xorMappedAddress.elim 0 fun addr =>
    4 + match addr.ip with
      | .v4 _ => 8
      | .v6 _ => 20) +
  if a.useCandidate then 4 else 0

/-- The writes of `to_bytes`, one after the other. -/
def toBytes (transId : TransId) : List Bytes :=
  (a.username.elim [] fun v =>
    let v := v.toUTF8.toList
    [u16ToBeBytes 0x0006,u16ToBeBytes (UInt16.ofNat v.length),v] ++
      List.replicate (4 - v.length % 4 % 4) [0]) ++
  (a.iceControlled.elim [] fun v => [u16ToBeBytes 0x8029,u16ToBeBytes 8,u64ToBeBytes v]) ++
  (a.iceControlling.elim [] fun v => [u16ToBeBytes 0x802a,u16ToBeBytes 8,u64ToBeBytes v]) ++
  (a.priority.elim [] fun v => [u16ToBeBytes 0x0024,u16ToBeBytes 4,u32ToBeBytes v]) ++
  (a.xorMappedAddress.elim [] fun v =>
    let bytes := encodeXor v transId
    [u16ToBeBytes 0x0020,u16ToBeBytes (UInt16.ofNat bytes.length),bytes]) ++
  if a.useCandidate then [u16ToBeBytes 0x0025,u16ToBeBytes 0] else []

end Attributes

namespace Message

def bindingRequest (username : String) (transId : TransId) (controlling : Bool)
    (controlTieBreaker : UInt64) (prio : UInt32) (useCandidate : Bool) : Message where
  cls := .request
  method := .binding
  transId
  attrs := {
    username := some username
    iceControlling := if controlling then some controlTieBreaker else none
    iceControlled := if controlling then none else some controlTieBreaker
    priority := some prio
    useCandidate }
  integrity := []
  integrityLen := 0

def reply (transId : TransId) (mappedAddress : SocketAddr) : Message where
  cls := .success
  method := .binding
  transId
  attrs := { xorMappedAddress := some mappedAddress }
  integrity := []
  integrityLen := 0

/-- The buffer with the message, and how many bytes of it are the message. -/
def toBytes [Crates] (m : Message) (password : String) (buf : Bytes) : Outcome WriteError (Bytes × ℕ) := do
  let attrLen := m.attrs.paddedLen + 20 + 4 + 4 + 4
  let typ := (← m.cls.toU16) ||| (← m.method.toU16)
  let c ← [u16ToBeBytes typ,u16ToBeBytes (UInt16.ofNat (attrLen - 8)),magic,m.transId.bytes].foldlM
    Cursor.writeAll ⟨buf,0⟩
  let c ← (m.attrs.toBytes m.transId).foldlM Cursor.writeAll c
  let c ← [u16ToBeBytes 0x0008,u16ToBeBytes 20,List.replicate 20 0].foldlM Cursor.writeAll c
  let integrityValueOffset := 20 + m.attrs.paddedLen + 4
  let c ← [u16ToBeBytes 0x8028,u16ToBeBytes 4,List.replicate 4 0].foldlM Cursor.writeAll c
  let fingerprintValueOffset := integrityValueOffset + 20 + 4
  let hmac := sha1Hmac password.toUTF8.toList [← slice c.buf 0 (integrityValueOffset - 4)]
  let buf ← copyFromSlice c.buf integrityValueOffset hmac
  let buf ← copyFromSlice buf 2 (u16ToBeBytes (UInt16.ofNat attrLen))
  let crc := Crates.checksum (← slice buf 0 (fingerprintValueOffset - 4)) ^^^ 0x5354554e
  let buf ← copyFromSlice buf fingerprintValueOffset (u32ToBeBytes crc)
  .ok (buf,20 + attrLen)

def checkIntegrity [Crates] {ε : Type} (m : Message) (password : String) : Outcome ε Bool :=
  match m.attrs.messageIntegrity with
  | some integ => do
    let front ← slice m.integrity 0 2
    let back ← sliceFrom m.integrity 4
    .ok (sha1Hmac password.toUTF8.toList [front,u16ToBeBytes m.integrityLen,back] = integ)
  | none => .ok false

end Message

def crcBit (crc : UInt32) : UInt32 :=
  if crc &&& 1 = 1 then crc >>> 1 ^^^ 0xEDB88320 else crc >>> 1

def crcByte (crc : UInt32) (b : UInt8) : UInt32 :=
  (List.range 8).foldl (fun crc _ => crcBit crc) (crc ^^^ b.toUInt32)

/-- The crates as they are specified. -/
abbrev specifiedCrates : Crates where
  Mac := Bytes × Bytes
  newFromSlice key := (key,[])
  update mac bytes := (mac.1,mac.2 ++ bytes)
  finalize mac := BlockHash.hmac Fips180.sha1 64 mac.1 mac.2
  checksum bytes := bytes.foldl crcByte 0xFFFFFFFF ^^^ 0xFFFFFFFF
  update_append mac a b := by simp
  length_finalize mac := by
    rw [← Turn.sha1_correct.2]
    exact Turn.length_hmacSha1 _ _

example : specifiedCrates.checksum [0x31,0x32,0x33,0x34,0x35,0x36,0x37,0x38,0x39] = 0xCBF43926 := by decide +kernel

theorem foldlM_writeAll (pieces : List Bytes) (written rest : Bytes) :
    pieces.foldlM Cursor.writeAll ⟨written ++ rest,written.length⟩ =
      if pieces.flatten.length ≤ rest.length then
        .ok ⟨written ++ pieces.flatten ++ rest.drop pieces.flatten.length,
          written.length + pieces.flatten.length⟩
      else .err .io := by
  induction pieces generalizing written rest with
  | nil => simp
  | cons piece pieces ih =>
    rw [List.foldlM_cons,Cursor.writeAll]
    simp only [List.length_append,Nat.add_le_add_iff_left,List.flatten_cons]
    by_cases h : piece.length ≤ rest.length
    · have hnext := ih (written ++ piece) (rest.drop piece.length)
      rw [List.length_append,List.length_drop] at hnext
      rw [if_pos h,ok_bind,List.take_left,List.drop_append,List.drop_eq_nil_of_le (Nat.le_add_right _ _),
        Nat.add_sub_cancel_left,List.nil_append,hnext]
      by_cases h' : pieces.flatten.length ≤ rest.length - piece.length
      · rw [if_pos h',if_pos (by omega),List.drop_drop,List.append_assoc,List.append_assoc,List.append_assoc,
          List.append_assoc,Nat.add_assoc]
      · rw [if_neg h',if_neg (by omega)]
    · rw [if_neg h,if_neg (by omega)]
      rfl

theorem lawfulMonad {ε : Type} : LawfulMonad (Outcome ε) :=
  LawfulMonad.mk' (Outcome ε) (fun x => by cases x <;> rfl) (fun _ _ => rfl) fun x f g => bind_bind x f g

theorem slice_front {ε : Type} {front back : Bytes} {n : ℕ} (h : front.length = n) :
    (slice (front ++ back) 0 n : Outcome ε Bytes) = .ok front := by
  have hfits : n ≤ (front ++ back).length := by
    rw [List.length_append]
    omega
  rw [slice_of_le (Nat.zero_le _) hfits,List.drop_zero,Nat.sub_zero,← h,List.take_left]

theorem copyFromSlice_middle (front old new back : Bytes) (i : ℕ) (hi : front.length = i)
    (h : old.length = new.length) : copyFromSlice (front ++ old ++ back) i new = .ok (front ++ new ++ back) := by
  subst hi
  have hfits : front.length + new.length ≤ (front ++ old ++ back).length := by
    simp only [List.length_append]
    omega
  rw [copyFromSlice,if_pos hfits,List.append_assoc front old,List.take_left,← h,← List.append_assoc front old,
    ← List.length_append,List.drop_left]

theorem length_encodeXor (addr : SocketAddr) (transId : TransId) :
    (encodeXor addr transId).length = match addr.ip with
      | .v4 _ => 8
      | .v6 _ => 20 := by
  unfold encodeXor octets
  cases addr.ip with
  | v4 bits => rfl
  | v6 bits => simp [u16ToBeBytes,magic,transId.length_eq]

theorem length_sha1Hmac [Crates] (key : Bytes) (payloads : List Bytes) : (sha1Hmac key payloads).length = 20 :=
  Crates.length_finalize _

theorem foldl_update [Crates] (mac : Crates.Mac) (first : Bytes) (payloads : List Bytes) :
    payloads.foldl Crates.update (Crates.update mac first) = Crates.update mac (first ++ payloads.flatten) := by
  induction payloads generalizing first with
  | nil => simp
  | cons payload payloads ih => rw [List.foldl_cons,Crates.update_append,ih,List.flatten_cons,List.append_assoc]

/-- How the message is cut does not matter. -/
theorem sha1Hmac_pieces [Crates] (key first : Bytes) (payloads : List Bytes) :
    sha1Hmac key (first :: payloads) = sha1Hmac key [first ++ payloads.flatten] :=
  congrArg Crates.finalize (foldl_update _ first payloads)

theorem Attributes.length_toBytes (a : Attributes) (transId : TransId) :
    (a.toBytes transId).flatten.length = a.paddedLen := by
  have hu16 : ∀ v, (u16ToBeBytes v).length = 2 := fun _ => rfl
  have hu32 : ∀ v, (u32ToBeBytes v).length = 4 := fun _ => rfl
  have hu64 : ∀ v, (u64ToBeBytes v).length = 8 := fun _ => rfl
  unfold Attributes.toBytes Attributes.paddedLen
  simp only [List.flatten_append,List.length_append]
  refine congrArg₂ _ (congrArg₂ _ (congrArg₂ _ (congrArg₂ _ (congrArg₂ _ ?_ ?_) ?_) ?_) ?_) ?_
  · cases a.username with
    | none => rfl
    | some v => simp [hu16]; omega
  · cases a.iceControlled <;> simp [hu16,hu64]
  · cases a.iceControlling <;> simp [hu16,hu64]
  · cases a.priority <;> simp [hu16,hu32]
  · cases a.xorMappedAddress with
    | none => rfl
    | some addr =>
      simp [hu16,length_encodeXor]
      omega
  · split <;> simp [hu16]

/-- Requests and successes that consist of the attributes that are written at all. -/
structure Message.Sendable (m : Message) : Prop where
  cls : m.cls = .request ∨ m.cls = .success
  method : m.method = .binding
  attrs : m.attrs = {
    username := m.attrs.username
    iceControlled := m.attrs.iceControlled
    iceControlling := m.attrs.iceControlling
    priority := m.attrs.priority
    xorMappedAddress := m.attrs.xorMappedAddress
    useCandidate := m.attrs.useCandidate }
  username : ∀ v, m.attrs.username = some v → v.toUTF8.toList.length ≤ 128
  complete : m.complete = .ok m

namespace Message
variable (m : Message) (password : String)

def typ : UInt16 := if m.cls = .request then 0x0001 else 0x0101

/-- Header and attributes, with a length that counts this many bytes behind the attributes. -/
def front (behind : ℕ) : Bytes :=
  stunHeader m.typ (UInt16.ofNat (m.attrs.paddedLen + behind)) m.transId.bytes ++
    (m.attrs.toBytes m.transId).flatten

/-- How many bytes are written. -/
def size : ℕ := 20 + (m.attrs.paddedLen + 20 + 4 + 4 + 4)

variable {m}

theorem length_front (behind : ℕ) : (m.front behind).length = 20 + m.attrs.paddedLen := by
  rw [front,List.length_append,Turn.length_stunHeader _ _ m.transId.length_eq,Attributes.length_toBytes]

theorem paddedLen_le (hm : m.Sendable) : m.attrs.paddedLen ≤ 196 := by
  have hname : (m.attrs.username.elim 0 fun v =>
      4 + v.toUTF8.toList.length + (4 - v.toUTF8.toList.length % 4 % 4)) ≤ 136 := by
    cases h : m.attrs.username with
    | none => exact Nat.zero_le _
    | some v =>
      have hv := hm.username v h
      simp only [Option.elim_some]
      omega
  have hcontrolled : (m.attrs.iceControlled.elim 0 fun _ => 4 + 8) ≤ 12 := by
    cases m.attrs.iceControlled <;> simp
  have hcontrolling : (m.attrs.iceControlling.elim 0 fun _ => 4 + 8) ≤ 12 := by
    cases m.attrs.iceControlling <;> simp
  have hprio : (m.attrs.priority.elim 0 fun _ => 4 + 4) ≤ 8 := by
    cases m.attrs.priority <;> simp
  have haddr : (m.attrs.xorMappedAddress.elim 0 fun addr => 4 + match addr.ip with
      | .v4 _ => 8
      | .v6 _ => 20) ≤ 24 := by
    cases m.attrs.xorMappedAddress with
    | none => simp
    | some addr =>
      simp only [Option.elim_some]
      split <;> decide
  have huse : (if m.attrs.useCandidate then 4 else 0) ≤ 4 := by
    split <;> decide
  unfold Attributes.paddedLen
  simp only
  omega

theorem copy_length (back : Bytes) :
    copyFromSlice (m.front 24 ++ back) 2 (u16ToBeBytes (UInt16.ofNat (m.attrs.paddedLen + 20 + 4 + 4 + 4))) =
      .ok (m.front 32 ++ back) := by
  have hcopy := copyFromSlice_middle (u16ToBeBytes m.typ) (u16ToBeBytes (UInt16.ofNat (m.attrs.paddedLen + 24)))
    (u16ToBeBytes (UInt16.ofNat (m.attrs.paddedLen + 32)))
    (u32ToBeBytes Turn.stunMagic ++ (m.transId.bytes ++ ((m.attrs.toBytes m.transId).flatten ++ back))) 2 rfl rfl
  rw [front,front,stunHeader,stunHeader]
  simpa only [List.append_assoc] using hcopy

section Sealed
variable (m) [Crates]

def mac : Bytes := sha1Hmac password.toUTF8.toList [m.front 24]

/-- All of the message that the fingerprint covers. -/
def authenticated : Bytes := m.front 32 ++ encoded (0x0008,m.mac password)

def crc : UInt32 := Crates.checksum (m.authenticated password) ^^^ 0x5354554e

def wire : Bytes := m.authenticated password ++ encoded (0x8028,u32ToBeBytes (m.crc password))

variable {m}

theorem length_mac : (m.mac password).length = 20 := length_sha1Hmac _ _

theorem encoded_mac : encoded (0x0008,m.mac password) = [0x00,0x08,0x00,0x14] ++ m.mac password := by
  have htyp : u16ToBeBytes 0x0008 = [0x00,0x08] := by decide
  have hlen : u16ToBeBytes (UInt16.ofNat 20) = [0x00,0x14] := by decide
  rw [encoded,Turn.appendAttr,length_mac,htyp,hlen]
  simp

theorem encoded_crc : encoded (0x8028,u32ToBeBytes (m.crc password)) =
    [0x80,0x28,0x00,0x04] ++ u32ToBeBytes (m.crc password) := by
  have htyp : u16ToBeBytes 0x8028 = [0x80,0x28] := by decide
  have hlen : u16ToBeBytes (UInt16.ofNat 4) = [0x00,0x04] := by decide
  have hcrc : (u32ToBeBytes (m.crc password)).length = 4 := rfl
  rw [encoded,Turn.appendAttr,hcrc,htyp,hlen]
  simp

theorem length_wire : (m.wire password).length = m.size := by
  rw [wire,authenticated,encoded_mac,encoded_crc,size]
  simp only [List.length_append,length_front,length_mac,List.length_cons,List.length_nil,u32ToBeBytes]
  omega

theorem copy_mac (back : Bytes) : copyFromSlice (m.front 24 ++ ([0x00,0x08,0x00,0x14] ++
      (List.replicate 20 0 ++ back))) (20 + m.attrs.paddedLen + 4) (m.mac password) =
    .ok (m.front 24 ++ (encoded (0x0008,m.mac password) ++ back)) := by
  have hcopy := copyFromSlice_middle (m.front 24 ++ [0x00,0x08,0x00,0x14]) (List.replicate 20 0) (m.mac password)
    back (20 + m.attrs.paddedLen + 4) (by rw [List.length_append,length_front]; rfl) (length_mac password).symm
  rw [encoded_mac]
  simpa only [List.append_assoc] using hcopy

theorem length_authenticated :
    (m.authenticated password).length = 20 + m.attrs.paddedLen + 4 + 20 + 4 - 4 := by
  rw [authenticated,encoded_mac]
  simp only [List.length_append,length_front,length_mac,List.length_cons,List.length_nil]
  omega

theorem copy_crc (back : Bytes) : copyFromSlice (m.authenticated password ++ ([0x80,0x28,0x00,0x04] ++
      (List.replicate 4 0 ++ back))) (20 + m.attrs.paddedLen + 4 + 20 + 4) (u32ToBeBytes (m.crc password)) =
    .ok (m.wire password ++ back) := by
  have hcopy := copyFromSlice_middle (m.authenticated password ++ [0x80,0x28,0x00,0x04]) (List.replicate 4 0)
    (u32ToBeBytes (m.crc password)) back (20 + m.attrs.paddedLen + 4 + 20 + 4)
    (by rw [List.length_append,length_authenticated]; rfl) rfl
  rw [wire,encoded_crc]
  simpa only [List.append_assoc] using hcopy

theorem toBytes_eq (hm : m.Sendable) (buf : Bytes) :
    m.toBytes password buf =
      if m.size ≤ buf.length then .ok (m.wire password ++ buf.drop m.size,m.size) else .err .io := by
  have hcls : ∃ c, m.cls.toU16 = .ok c ∧ c ||| 0x0001 = m.typ := by
    rcases hm.cls with h | h
    · exact ⟨0x0000,by rw [h]; rfl,by rw [typ,if_pos h]; rfl⟩
    · exact ⟨0x0100,by rw [h]; rfl,by rw [typ,h]; rfl⟩
  obtain ⟨c,hcls,htyp⟩ := hcls
  have hmethod : m.method.toU16 = .ok 0x0001 := by
    rw [hm.method]
    rfl
  -- the four series of writes are one
  have hseries : ∀ (p₁ p₂ p₃ p₄ : List Bytes) (f : Cursor → Outcome WriteError (Bytes × ℕ)),
      (p₁.foldlM Cursor.writeAll ⟨buf,0⟩ >>= fun c => p₂.foldlM Cursor.writeAll c >>= fun c =>
        p₃.foldlM Cursor.writeAll c >>= fun c => p₄.foldlM Cursor.writeAll c >>= f) =
      if (p₁ ++ p₂ ++ p₃ ++ p₄).flatten.length ≤ buf.length then
        f ⟨(p₁ ++ p₂ ++ p₃ ++ p₄).flatten ++ buf.drop (p₁ ++ p₂ ++ p₃ ++ p₄).flatten.length,
          (p₁ ++ p₂ ++ p₃ ++ p₄).flatten.length⟩
      else .err .io := by
    intro p₁ p₂ p₃ p₄ f
    have hfold := foldlM_writeAll (p₁ ++ p₂ ++ p₃ ++ p₄) [] buf
    have := lawfulMonad (ε := WriteError)
    rw [List.foldlM_append,List.foldlM_append,List.foldlM_append] at hfold
    rw [← bind_bind,← bind_bind,← bind_bind]
    refine (congrArg (· >>= f) hfold).trans ?_
    split
    · rw [ok_bind,List.length_nil,Nat.zero_add]
      rfl
    · rfl
  have hlen : (m.attrs.toBytes m.transId).flatten.length = m.attrs.paddedLen := Attributes.length_toBytes _ _
  simp only [toBytes,hcls,hmethod,ok_bind,htyp]
  rw [hseries]
  have hflat : ([u16ToBeBytes m.typ,u16ToBeBytes (UInt16.ofNat (m.attrs.paddedLen + 20 + 4 + 4 + 4 - 8)),magic,
        m.transId.bytes] ++ m.attrs.toBytes m.transId ++ [u16ToBeBytes 0x0008,u16ToBeBytes 20,List.replicate 20 0] ++
        [u16ToBeBytes 0x8028,u16ToBeBytes 4,List.replicate 4 0]).flatten =
      m.front 24 ++ [0x00,0x08,0x00,0x14] ++ List.replicate 20 0 ++ [0x80,0x28,0x00,0x04] ++ List.replicate 4 0 := by
    have h₁ : u16ToBeBytes 0x0008 = [0x00,0x08] := by decide
    have h₂ : u16ToBeBytes 20 = [0x00,0x14] := by decide
    have h₃ : u16ToBeBytes 0x8028 = [0x80,0x28] := by decide
    have h₄ : u16ToBeBytes 4 = [0x00,0x04] := by decide
    have hmagic : magic = u32ToBeBytes Turn.stunMagic := by decide
    have hcount : m.attrs.paddedLen + 20 + 4 + 4 + 4 - 8 = m.attrs.paddedLen + 24 := by omega
    rw [h₁,h₂,h₃,h₄,hmagic,hcount,front,stunHeader]
    simp only [List.flatten_append,List.flatten_cons,List.flatten_nil,List.append_nil,List.append_assoc,
      List.cons_append,List.nil_append]
  have hsize : (m.front 24 ++ [0x00,0x08,0x00,0x14] ++ List.replicate 20 0 ++ [0x80,0x28,0x00,0x04] ++
      List.replicate 4 0).length = m.size := by
    simp only [List.length_append,length_front,List.length_cons,List.length_nil,List.length_replicate,size]
    omega
  rw [hflat,hsize]
  split
  · rw [List.append_assoc,List.append_assoc,List.append_assoc,List.append_assoc,
      slice_front (by rw [length_front]; rfl),ok_bind]
    change (copyFromSlice _ _ (m.mac password) >>= _) = _
    rw [copy_mac,ok_bind,copy_length,ok_bind,← List.append_assoc (m.front 32),← authenticated,
      slice_front (length_authenticated password),ok_bind]
    change (copyFromSlice _ _ (u32ToBeBytes (m.crc password)) >>= _) = _
    rw [copy_crc]
    rfl
  · rfl

end Sealed

end Message

end Stun
end AnyKvm
