import AnyKvm.StunMessage

/-! `webrtc.rs`: the requests that the agent sends to its STUN and TURN servers, the waits for the
answers, and what is read out of them. All of them share one UDP socket. -/
namespace AnyKvm
namespace Turn

open Outcome Bytes TlvWalk

def u16ToBeBytes (v : UInt16) : Bytes := [(v >>> 8).toUInt8,v.toUInt8]

def u32ToBeBytes (v : UInt32) : Bytes :=
  [(v >>> 24).toUInt8,(v >>> 16).toUInt8,(v >>> 8).toUInt8,v.toUInt8]

def u64ToBeBytes (v : UInt64) : Bytes :=
  [(v >>> 56).toUInt8,(v >>> 48).toUInt8,(v >>> 40).toUInt8,(v >>> 32).toUInt8,
    (v >>> 24).toUInt8,(v >>> 16).toUInt8,(v >>> 8).toUInt8,v.toUInt8]

def txnId (msg : Bytes) : Bytes := (msg.drop 8).take 12

/-- `gen_txn_id` at a time since the epoch. -/
def genTxnId (nanos : ℕ) : Bytes :=
  u64ToBeBytes (UInt64.ofNat nanos) ++ u32ToBeBytes (UInt32.ofNat (nanos >>> 64))

def stunHeader (msgType msgLen : UInt16) (txn : Bytes) : Bytes :=
  u16ToBeBytes msgType ++ u16ToBeBytes msgLen ++ u32ToBeBytes stunMagic ++ txn

/-- The attribute is padded to a multiple of four bytes. -/
def appendAttr (buf : Bytes) (attrType : UInt16) (value : Bytes) : Bytes :=
  buf ++ u16ToBeBytes attrType ++ u16ToBeBytes (UInt16.ofNat value.length) ++ value ++
    List.replicate ((4 - value.length % 4) % 4) 0

structure TurnState where
  turnAddr : SocketAddr
  realm : Bytes
  nonce : Bytes
  username : String
  password : String
  deriving DecidableEq

section Auth
variable (md5Hash : Bytes → Bytes) (hmacSha1 : Bytes → Bytes → Bytes)

/-- The key of the long-term credentials. -/
def md5Key (username : String) (realm : Bytes) (password : String) : Bytes :=
  let realmStr := (Stun.text? realm).getD ""
  md5Hash (s!"{username}:{realmStr}:{password}").toUTF8.toList

def appendAuth (buf header : Bytes) (ts : TurnState) : Bytes :=
  let buf := appendAttr buf 0x0006 ts.username.toUTF8.toList
  let buf := appendAttr buf 0x0014 ts.realm
  let buf := appendAttr buf 0x0015 ts.nonce
  let len := UInt16.ofNat buf.length + 24
  let header := header.take 2 ++ u16ToBeBytes len ++ header.drop 4
  appendAttr buf 0x0008 (hmacSha1 (md5Key md5Hash ts.username ts.realm ts.password) (header ++ buf))

/-- XOR-PEER-ADDRESS with a port; nothing is appended for other addresses than those of IPv4. -/
def appendPeer (buf : Bytes) (ip : IpAddr) (port : UInt16) : Bytes :=
  match ip with
  | .v4 bits => appendAttr buf 0x0012
      (([0,1] : Bytes) ++ u16ToBeBytes (port ^^^ (stunMagic >>> 16).toUInt16) ++ u32ToBeBytes (bits ^^^ stunMagic))
  | .v6 _ => buf

/-- A Binding request: the second half of its transaction ID is fixed. -/
def bindingRequest (nanos : ℕ) : Bytes :=
  stunHeader 0x0001 0 (u64ToBeBytes (UInt64.ofNat nanos) ++ [0xAB,0xCD,0xEF,0x01])

/-- REQUESTED-TRANSPORT, UDP. -/
def requestedTransport : Bytes := appendAttr [] 0x0019 (u32ToBeBytes 0x11000000)

/-- A request around its attributes. -/
def request (msgType : UInt16) (txn attrs : Bytes) : Bytes :=
  stunHeader msgType (UInt16.ofNat attrs.length) txn ++ attrs

def allocateRequest₁ (nanos : ℕ) : Bytes := request 0x0003 (genTxnId nanos) requestedTransport

def allocateRequest₂ (ts : TurnState) (nanos : ℕ) : Bytes :=
  let txn := genTxnId nanos
  request 0x0003 txn (appendAuth md5Hash hmacSha1 requestedTransport (stunHeader 0x0003 0 txn) ts)

def createPermissionRequest (ts : TurnState) (peerIp : IpAddr) (nanos : ℕ) : Bytes :=
  let txn := genTxnId nanos
  request 0x0008 txn (appendAuth md5Hash hmacSha1 (appendPeer [] peerIp 0) (stunHeader 0x0008 0 txn) ts)

/-- `turn_refresh` asks for 600 s. -/
def refreshRequest (ts : TurnState) (nanos : ℕ) : Bytes :=
  let txn := genTxnId nanos
  request 0x0004 txn (appendAuth md5Hash hmacSha1 (appendAttr [] 0x000D (u32ToBeBytes 600)) (stunHeader 0x0004 0 txn) ts)

end Auth

/-- A Send indication: data that the TURN server is to pass on to a peer. -/
def buildTurnSendIndication (peer : SocketAddr) (data : Bytes) (nanos : ℕ) : Bytes :=
  request 0x0016 (genTxnId nanos) (appendAttr (appendPeer [] peer.ip peer.port) 0x0013 data)

def parseMapped (val : Bytes) : Outcome String SocketAddr :=
  if val.length < 8 then .err "MAPPED-ADDRESS too short"
  else do
    let port := u16FromBeBytes (← index val 2) (← index val 3)
    let family ← index val 1
    if family = 0x01 then do
      let addr := u32FromBeBytes (← index val 4) (← index val 5) (← index val 6) (← index val 7)
      .ok ⟨.v4 addr,port⟩
    else .err s!"unsupported address family {family}"

/-- The end of the attributes, by the length field and within the datagram. -/
def attrsEnd {ε : Type} (data : Bytes) : Outcome ε ℕ := do
  let msgLen := (u16FromBeBytes (← index data 2) (← index data 3)).toNat
  .ok (min (20 + msgLen) data.length)

def onMappedAttr (data : Bytes) (attr : Attr) (s : Option SocketAddr) :
    Outcome String (ForInStep (Option SocketAddr)) := do
  let val ← slice data attr.start (attr.start + attr.len)
  if attr.typ = 0x0020 then do
    let addr ← parseXorMapped val
    .ok (.done (some addr))
  else if attr.typ = 0x0001 then do
    let addr ← parseMapped val
    .ok (.done (some addr))
  else .ok (.yield s)

def parseStunResponse (data : Bytes) : Outcome String SocketAddr :=
  if data.length < 20 then .err "STUN response too short"
  else do
    let cookie := u32FromBeBytes (← index data 4) (← index data 5) (← index data 6) (← index data 7)
    if cookie ≠ stunMagic then .err "invalid STUN magic cookie"
    else do
      let msgType := u16FromBeBytes (← index data 0) (← index data 1)
      if msgType ≠ 0x0101 then .err s!"STUN msg type {Stun.hex4 msgType}, expected 0x0101"
      else do
        match ← walk data (← attrsEnd data) (onMappedAttr data) data.length 20 none with
        | some addr => .ok addr
        | none => .err "no MAPPED-ADDRESS in STUN response"

def onAuthAttr (data : Bytes) (attr : Attr) (s : Option Bytes × Option Bytes) :
    Outcome String (ForInStep (Option Bytes × Option Bytes)) :=
  if attr.typ = 0x0014 then do
    let val ← slice data attr.start (attr.start + attr.len)
    .ok (.yield (some val,s.2))
  else if attr.typ = 0x0015 then do
    let val ← slice data attr.start (attr.start + attr.len)
    .ok (.yield (s.1,some val))
  else .ok (.yield s)

/-- REALM and NONCE of a 401 answer; the type of the message is not looked at. -/
def parseTurnError401 (data : Bytes) : Outcome String (Bytes × Bytes) :=
  if data.length < 20 then .err "response too short"
  else do
    match ← walk data (← attrsEnd data) (onAuthAttr data) data.length 20 (none,none) with
    | (some realm,some nonce) => .ok (realm,nonce)
    | _ => .err "missing REALM or NONCE in 401"

def onTargetAttr (data : Bytes) (targetType : UInt16) (attr : Attr) (s : Option Bytes) :
    Outcome String (ForInStep (Option Bytes)) := do
  let val ← slice data attr.start (attr.start + attr.len)
  if attr.typ = targetType then .ok (.done (some val)) else .ok (.yield s)

def parseStunAttr (data : Bytes) (targetType : UInt16) : Outcome String (Option Bytes) :=
  if data.length < 20 then .ok none
  else do walk data (← attrsEnd data) (onTargetAttr data targetType) data.length 20 none

/-- The end of `turn_allocate`: the first two bytes are read without asking for the length. -/
def parseAllocateResponse (resp : Bytes) : Outcome String SocketAddr := do
  let msgType := u16FromBeBytes (← index resp 0) (← index resp 1)
  if msgType ≠ 0x0103 then
    if msgType = 0x0113 then .err "TURN Allocate error response (check credentials)"
    else .err s!"unexpected TURN response type {Stun.hex4 msgType}"
  else do
    let missing := .err "TURN Allocate response missing XOR-RELAYED-ADDRESS"
    match ← parseStunAttr resp 0x0016 with
    | none => missing
    | some val =>
      match ← (parseXorMapped val).attempt with
      | none => missing
      | some relay => .ok relay

/-- A datagram with its sender, or an error of the socket, and when it comes in (in milliseconds). -/
structure Arrival where
  time : ℕ
  packet : Except String (SocketAddr × Bytes)

/-- The socket between two calls: the time, and what is still to come in. -/
structure Socket where
  now : ℕ
  incoming : List Arrival

/-- A receive buffer of a fixed length. -/
def Buffer (cap : ℕ) := { bytes : Bytes // bytes.length = cap }

def Buffer.zeros (cap : ℕ) : Buffer cap := ⟨List.replicate cap 0,List.length_replicate⟩

/-- `recv_from` cuts a datagram off at the end of the buffer and leaves what is behind it. -/
def Buffer.store {cap : ℕ} (buf : Buffer cap) (data : Bytes) : Buffer cap :=
  ⟨data.take cap ++ buf.val.drop (data.take cap).length,by
    rw [List.length_append,List.length_drop,List.length_take,buf.property]
    omega⟩

/-- `&buf[..n]`, once a datagram has been stored. -/
def Buffer.received {cap : ℕ} (buf : Buffer cap) (n : ℕ) : Bytes := buf.val.take n

def Buffer.msgType {cap : ℕ} (buf : Buffer cap) : UInt16 :=
  u16FromBeBytes (buf.val.getD 0 0) (buf.val.getD 1 0)

/-- What ends a wait: a datagram of so many bytes, an error of the socket, or the timeout. -/
inductive Ending
  | datagram (n : ℕ)
  | failed (error : String)
  | timeout
  deriving DecidableEq, Repr

structure Waited (cap : ℕ) where
  ending : Ending
  buf : Buffer cap
  socket : Socket

/-- `timeout(.., loop { recv_from(&mut buf); if from == addr { .. } })`: datagrams of other
senders are passed over, and those of the server that do not end the wait. -/
def recvLoop {cap : ℕ} (addr : SocketAddr) (deadline : ℕ) (ends : Buffer cap → Bool) :
    Buffer cap → ℕ → List Arrival → Waited cap
  | buf,_,[] => ⟨.timeout,buf,⟨deadline,[]⟩⟩
  | buf,now,a :: rest =>
    if deadline < a.time then ⟨.timeout,buf,⟨deadline,a :: rest⟩⟩
    else match a.packet with
      | .error e => ⟨.failed e,buf,⟨max now a.time,rest⟩⟩
      | .ok (source,data) =>
        let buf := buf.store data
        if source = addr ∧ ends buf = true then
          ⟨.datagram (min data.length cap),buf,⟨max now a.time,rest⟩⟩
        else recvLoop addr deadline ends buf (max now a.time) rest

/-- A request that the agent waits on: the server, how long, and which answers end the wait. -/
structure Exchange where
  server : SocketAddr
  request : Bytes
  timeout : ℕ
  cap : ℕ
  ends : Buffer cap → Bool

def Exchange.wait (e : Exchange) (buf : Buffer e.cap) (s : Socket) : Waited e.cap :=
  recvLoop e.server (s.now + e.timeout) e.ends buf s.now s.incoming

section Calls
variable (md5Hash : Bytes → Bytes) (hmacSha1 : Bytes → Bytes → Bytes)

def bindingExchange (stunAddr : SocketAddr) (nanos : ℕ) : Exchange :=
  ⟨stunAddr,bindingRequest nanos,3000,512,fun _ => true⟩

def allocateExchange₁ (turnAddr : SocketAddr) (nanos : ℕ) : Exchange :=
  ⟨turnAddr,allocateRequest₁ nanos,3000,1024,fun _ => true⟩

def allocateExchange₂ (ts : TurnState) (nanos : ℕ) : Exchange :=
  ⟨ts.turnAddr,allocateRequest₂ md5Hash hmacSha1 ts nanos,3000,1024,fun _ => true⟩

/-- Only the two answers to a CreatePermission end its wait. -/
def createPermissionExchange (ts : TurnState) (peerIp : IpAddr) (nanos : ℕ) : Exchange :=
  ⟨ts.turnAddr,createPermissionRequest md5Hash hmacSha1 ts peerIp nanos,2000,512,
    fun buf => buf.msgType = 0x0108 ∨ buf.msgType = 0x0118⟩

/-- The result of a wait for any answer, with what is read out of it. -/
def answer {α : Type} {cap : ℕ} (w : Waited cap) (timeout : String)
    (parse : Bytes → Outcome String α) : Outcome String α :=
  match w.ending with
  | .datagram n => parse (w.buf.received n)
  | .failed e => .err e
  | .timeout => .err timeout

def stunBinding (stunAddr : SocketAddr) (nanos : ℕ) (s : Socket) : Outcome String SocketAddr × Socket :=
  let e := bindingExchange stunAddr nanos
  let w := e.wait (.zeros 512) s
  (answer w "STUN binding timeout" parseStunResponse,w.socket)

/-- Both steps of `turn_allocate`; they share a buffer. -/
def turnAllocate (turnAddr : SocketAddr) (username password : String) (nanos₁ nanos₂ : ℕ) (s : Socket) :
    Outcome String (SocketAddr × TurnState) × Socket :=
  let e₁ := allocateExchange₁ turnAddr nanos₁
  let w₁ := e₁.wait (.zeros 1024) s
  match answer w₁ "TURN allocate step1 timeout" fun data =>
      (parseTurnError401 data).mapErr fun e => s!"TURN server did not return 401 with realm/nonce: {e}" with
  | .ok (realm,nonce) =>
    let ts := ⟨turnAddr,realm,nonce,username,password⟩
    let e₂ := allocateExchange₂ md5Hash hmacSha1 ts nanos₂
    let w₂ := e₂.wait w₁.buf w₁.socket
    match answer w₂ "TURN allocate step2 timeout" parseAllocateResponse with
    | .ok relay => (.ok (relay,ts),w₂.socket)
    | .err e => (.err e,w₂.socket)
    | .panicked => (.panicked,w₂.socket)
  | .err e => (.err e,w₁.socket)
  | .panicked => (.panicked,w₁.socket)

/-- How the wait ends makes no difference to the result. -/
def turnCreatePermission (ts : TurnState) (peerIp : IpAddr) (nanos : ℕ) (s : Socket) :
    Outcome String Unit × Socket :=
  let e := createPermissionExchange md5Hash hmacSha1 ts peerIp nanos
  let w := e.wait (.zeros 512) s
  (.ok (),w.socket)

end Calls

end Turn
end AnyKvm
