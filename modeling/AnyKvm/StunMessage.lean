import AnyKvm.Text
import AnyKvm.TurnData

/-! `stun.rs` of the vendored str0m: parsing an incoming STUN message.
The parser reads the values of some attributes without asking whether the datagram holds them. -/
namespace AnyKvm
namespace Stun

open Outcome Bytes
open Turn (IpAddr SocketAddr)

/-- What the code was built for: whether arithmetic is checked, and how many values `usize` has. -/
structure Target where
  overflowChecks : Bool
  usizeValues : ℕ
  usizeValues_ge : 4294967296 ≤ usizeValues

def Target.sub {ε : Type} (t : Target) (a b : ℕ) : Outcome ε ℕ :=
  if b ≤ a then .ok (a - b)
  else if t.overflowChecks then .panicked
  else .ok (t.usizeValues + a - b)

inductive StunError
  | parse (text : String)
  deriving DecidableEq, Repr

structure TransId where
  bytes : Bytes
  length_eq : bytes.length = 12
  deriving DecidableEq, Repr

def TransId.fromSlice {ε : Type} (s : Bytes) : Outcome ε TransId :=
  if h : s.length = 12 then .ok ⟨s,h⟩ else .panicked

def magic : Bytes := [0x21,0x12,0xA4,0x42]

inductive Class
  | request | indication | success | failure | unknown
  deriving DecidableEq, Repr

def Class.fromTyp (typ : UInt16) : Class :=
  if typ &&& 0x0110 = 0x0000 then .request
  else if typ &&& 0x0110 = 0x0010 then .indication
  else if typ &&& 0x0110 = 0x0100 then .success
  else if typ &&& 0x0110 = 0x0110 then .failure
  else .unknown

inductive Method
  | binding | unknown
  deriving DecidableEq, Repr

def Method.fromTyp (typ : UInt16) : Method :=
  if typ &&& 0x3EEF = 0x0001 then .binding else .unknown

/-- The attribute types that the parser tells apart. -/
inductive AttrType
  | mappedAddress | username | messageIntegrity | errorCode | unknownAttributes | realm | nonce
  | xorMappedAddress | software | priority | useCandidate | alternateServer | fingerprint
  | iceControlled | iceControlling | networkCost | other
  deriving DecidableEq, Repr

def AttrType.ofTyp (typ : UInt16) : AttrType :=
  if typ = 0x0001 then .mappedAddress
  else if typ = 0x0006 then .username
  else if typ = 0x0008 then .messageIntegrity
  else if typ = 0x0009 then .errorCode
  else if typ = 0x000a then .unknownAttributes
  else if typ = 0x0014 then .realm
  else if typ = 0x0015 then .nonce
  else if typ = 0x0020 then .xorMappedAddress
  else if typ = 0x0022 then .software
  else if typ = 0x0024 then .priority
  else if typ = 0x0025 then .useCandidate
  else if typ = 0x8023 then .alternateServer
  else if typ = 0x8028 then .fingerprint
  else if typ = 0x8029 then .iceControlled
  else if typ = 0x802a then .iceControlling
  else if typ = 0xc057 then .networkCost
  else .other

structure Attributes where
  username : Option String := none
  messageIntegrity : Option Bytes := none
  errorCode : Option (UInt16 × String) := none
  realm : Option String := none
  nonce : Option String := none
  xorMappedAddress : Option SocketAddr := none
  software : Option String := none
  fingerprint : Option UInt32 := none
  priority : Option UInt32 := none
  useCandidate : Bool := false
  iceControlled : Option UInt64 := none
  iceControlling : Option UInt64 := none
  networkCost : Option (UInt16 × UInt16) := none

/-- The local and the remote part of a user name, split at its first colon, if anything follows it. -/
def Attributes.splitUsername (a : Attributes) : Option (List Char × List Char) := do
  let v ← a.username
  let remote ← Text.after? [':'] v.toList
  if remote = [] then none else some (Text.upTo [':'] v.toList,remote)

def hex4 (typ : UInt16) : String :=
  String.ofList (List.leftpad 4 '0' (Nat.toDigits 16 typ.toNat))

def text? (bytes : Bytes) : Option String := String.fromUTF8? (ByteArray.mk bytes.toArray)

def decodeStr (typ : UInt16) (buf : Bytes) (len : ℕ) : Outcome StunError String :=
  if len > 128 then .err (.parse s!"0x{hex4 typ} too long str len: {len}")
  else do
    match text? (← slice buf 0 len) with
    | some v => .ok v
    | none => .err (.parse s!"0x{hex4 typ} malformed utf-8")

/-- `bytes[i] = ip_buf[i] ^ mask[i]` for each index of the mask. -/
def xorBytes {ε : Type} : Bytes → Bytes → Outcome ε Bytes
  | [],_ => .ok []
  | m :: mask,buf => do
    let b ← index buf 0
    let bytes ← xorBytes mask (buf.drop 1)
    .ok ((b ^^^ m) :: bytes)

def ipv4 (octets : Bytes) : IpAddr :=
  .v4 (octets.foldl (fun acc b => acc <<< 8 ||| b.toUInt32) 0)

def ipv6 (octets : Bytes) : IpAddr :=
  .v6 (octets.foldl (fun acc b => acc <<< 8 ||| b.toBitVec.setWidth 128) 0)

def decodeXor (buf : Bytes) (transId : TransId) : Outcome StunError SocketAddr := do
  let port := u16FromBeBytes (← index buf 2) (← index buf 3) ^^^ 0x2112
  let ipBuf ← sliceFrom buf 4
  let family ← index buf 1
  if family = 1 then do
    let bytes ← xorBytes magic ipBuf
    .ok ⟨ipv4 bytes,port⟩
  else if family = 2 then do
    let bytes ← xorBytes (magic ++ transId.bytes) ipBuf
    .ok ⟨ipv6 bytes,port⟩
  else .err (.parse s!"Invalid address family: {family}")

/-- The top of an error code: two zero bytes and the class, in hundreds. -/
def decodeErrorClass (buf : Bytes) : Outcome StunError UInt16 := do
  let bad := .err (.parse "Expected 0 at top of error code")
  if (← index buf 4) ≠ 0 then bad
  else do
    if (← index buf 5) ≠ 0 then bad
    else do
      let hundreds ← index buf 6
      if hundreds &&& 0xF8 ≠ 0 then bad
      else
        let errorClass := hundreds.toUInt16 * 100
        if errorClass < 300 ∨ errorClass > 699 then
          .err (.parse s!"Error class is not in range: {errorClass}")
        else .ok errorClass

/-- Code and reason phrase of an ERROR-CODE; `buf` starts with the header of the attribute. -/
def decodeErrorCode (t : Target) (typ : UInt16) (buf : Bytes) (len : ℕ) :
    Outcome StunError (UInt16 × String) := do
  let errorClass ← decodeErrorClass buf
  let code := errorClass + ((← index buf 7) % 100).toUInt16
  let rest ← sliceFrom buf 8
  let reason ← decodeStr typ rest (← t.sub len 4)
  .ok (code,reason)

structure ParseState where
  attributes : Attributes := {}
  ignoreRest : Bool := false
  msgIntegrityOff : ℕ := 0

def onAttr (t : Target) (transId : TransId) (typ : UInt16) (len off : ℕ) (buf : Bytes)
    (s : ParseState) : Outcome StunError ParseState :=
  let a := s.attributes
  match AttrType.ofTyp typ with
  | .username => do
    let v ← decodeStr typ (← sliceFrom buf 4) len
    .ok { s with attributes := { a with username := some v } }
  | .messageIntegrity =>
    if len ≠ 20 then .err (.parse "Expected message integrity to have length 20")
    else do
      let v ← slice buf 4 24
      .ok {
        attributes := { a with messageIntegrity := some v }
        ignoreRest := true
        msgIntegrityOff := off }
  | .errorCode => do
    let v ← decodeErrorCode t typ buf len
    .ok { s with attributes := { a with errorCode := some v } }
  | .realm => do
    let v ← decodeStr typ (← sliceFrom buf 4) len
    .ok { s with attributes := { a with realm := some v } }
  | .nonce => do
    let v ← decodeStr typ (← sliceFrom buf 4) len
    .ok { s with attributes := { a with nonce := some v } }
  | .xorMappedAddress => do
    let v ← decodeXor (← sliceFrom buf 4) transId
    .ok { s with attributes := { a with xorMappedAddress := some v } }
  | .software => do
    let v ← decodeStr typ (← sliceFrom buf 4) len
    .ok { s with attributes := { a with software := some v } }
  | .priority =>
    if len ≠ 4 then .err (.parse "Priority that isnt 4 in length")
    else do
      let v := u32FromBeBytes (← index buf 4) (← index buf 5) (← index buf 6) (← index buf 7)
      .ok { s with attributes := { a with priority := some v } }
  | .useCandidate =>
    if len ≠ 0 then .err (.parse "UseCandidate that isnt 0 in length")
    else .ok { s with attributes := { a with useCandidate := true } }
  | .fingerprint => do
    let v := u32FromBeBytes (← index buf 4) (← index buf 5) (← index buf 6) (← index buf 7)
    .ok { s with attributes := { a with fingerprint := some v } }
  | .iceControlled =>
    if len ≠ 8 then .err (.parse "IceControlled that isnt 8 in length")
    else do
      let v ← slice buf 4 12
      .ok { s with attributes := { a with iceControlled := some (u64FromBeBytes v) } }
  | .iceControlling =>
    if len ≠ 8 then .err (.parse "IceControlling that isnt 8 in length")
    else do
      let v ← slice buf 4 12
      .ok { s with attributes := { a with iceControlling := some (u64FromBeBytes v) } }
  | .networkCost =>
    if len ≠ 4 then .ok s
    else do
      let netId := u16FromBeBytes (← index buf 4) (← index buf 5)
      let cost := u16FromBeBytes (← index buf 6) (← index buf 7)
      .ok { s with attributes := { a with networkCost := some (netId,cost) } }
  | .mappedAddress | .unknownAttributes | .alternateServer | .other => .ok s

/-- The length of a value with the padding that fills up its last four bytes. -/
def padLen (len : ℕ) : ℕ := len + (4 - len % 4) % 4

/-- After MESSAGE-INTEGRITY only FINGERPRINT counts. -/
def considered (ignoreRest : Bool) (typ : UInt16) : Bool :=
  !ignoreRest || AttrType.ofTyp typ == .fingerprint

/-- `Attributes::parse`. The first number bounds the number of passes. -/
def parseAttrs (t : Target) (transId : TransId) : ℕ → ℕ → Bytes → ParseState →
    Outcome StunError ParseState
  | 0,_,_,_ => .panicked
  | fuel + 1,off,buf,s =>
    if buf = [] then .ok s
    else do
      let typ := u16FromBeBytes (← index buf 0) (← index buf 1)
      let len := (u16FromBeBytes (← index buf 2) (← index buf 3)).toNat
      let room ← t.sub buf.length 4
      if len > room then .err (.parse s!"Bad STUN attribute length: {len} > {room}")
      else do
        let s ← if considered s.ignoreRest typ then onAttr t transId typ len off buf s else .ok s
        let rest ← sliceFrom buf (4 + padLen len)
        parseAttrs t transId fuel (off + (4 + padLen len)) rest s

structure Message where
  cls : Class
  method : Method
  transId : TransId
  attrs : Attributes
  integrity : Bytes
  integrityLen : UInt16

/-- The checks on a message whose attributes have been read. -/
def Message.complete (m : Message) : Outcome StunError Message :=
  if m.method = .binding ∧ m.cls = .success then
    if m.attrs.xorMappedAddress.isNone then .err (.parse "STUN packet missing mapped addr")
    else .ok m
  else if m.method = .binding ∧ m.cls = .request then
    if m.attrs.splitUsername.isNone then .err (.parse "STUN packet missing username")
    else if m.attrs.priority.isNone then .err (.parse "STUN packet missing mapped addr")
    else .ok m
  else .ok m

def Message.parse (t : Target) (buf : Bytes) : Outcome StunError Message :=
  if buf.length < 4 then .err (.parse "Buffer too short")
  else do
    let typ := u16FromBeBytes ((← index buf 0) &&& 0x3F) (← index buf 1)
    let len := u16FromBeBytes (← index buf 2) (← index buf 3)
    if len &&& 3 > 0 then .err (.parse "len is not a multiple of 4")
    else do
      if len.toNat ≠ (← t.sub buf.length 20) then
        .err (.parse "STUN length vs UDP packet mismatch")
      else do
        if (← slice buf 4 8) ≠ magic then .err (.parse "magic cookie mismatch")
        else do
          let transId ← TransId.fromSlice (← slice buf 8 20)
          let body ← sliceFrom buf 20
          let s ← parseAttrs t transId (body.length + 1) 0 body {}
          if s.msgIntegrityOff = 0 then .err (.parse "No message integrity in incoming")
          else do
            let integrity ← slice buf 0 (s.msgIntegrityOff + 20)
            Message.complete {
              cls := .fromTyp typ
              method := .fromTyp typ
              transId
              attrs := s.attributes
              integrity
              integrityLen := UInt16.ofNat (s.msgIntegrityOff + 4 + 20) }

end Stun
end AnyKvm
