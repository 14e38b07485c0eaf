import AnyKvm.StunSafety

/-! The receive branch of `webrtc::run`, up to `Rtc::handle_input`, with the demultiplexer of str0m.
The demultiplexer reads the first byte of whatever it is given. -/
namespace AnyKvm
namespace Inbound

open Outcome Stun
open Turn (SocketAddr parseTurnData parseTurnData_eq relayed?)

inductive NetError
  | stun (e : StunError)
  | io (text : String)
  deriving DecidableEq, Repr

inductive Protocol
  | udp | tcp | sslTcp | tls
  deriving DecidableEq, Repr

inductive MultiplexKind
  | stun | dtls | rtp | rtcp
  deriving DecidableEq, Repr

/-- RTP or RTCP, by the payload type. -/
def MultiplexKind.ofPayloadType (payloadType : UInt8) : MultiplexKind :=
  if payloadType < 64 then .rtp
  else if payloadType ≥ 64 ∧ payloadType < 96 then .rtcp
  else .rtp

def MultiplexKind.tryFrom (value : Bytes) : Outcome NetError MultiplexKind := do
  let byte0 ← index value 0
  if byte0 < 2 ∧ value.length ≥ 20 then .ok .stun
  else if byte0 ≥ 20 ∧ byte0 < 64 then .ok .dtls
  else if byte0 ≥ 128 ∧ byte0 < 192 ∧ value.length > 2 then do
    let byte1 ← index value 1
    .ok (.ofPayloadType (byte1 &&& 0x7f))
  else .err (.io "Unknown datagram")

inductive DatagramRecv
  | stun (m : Message)
  | dtls (value : Bytes)
  | rtp (value : Bytes)
  | rtcp (value : Bytes)

def DatagramRecv.tryFrom (t : Target) (value : Bytes) : Outcome NetError DatagramRecv := do
  match ← MultiplexKind.tryFrom value with
  | .stun => do
    let m ← (Message.parse t value).mapErr .stun
    .ok (.stun m)
  | .dtls => .ok (.dtls value)
  | .rtp => .ok (.rtp value)
  | .rtcp => .ok (.rtcp value)

structure Receive where
  proto : Protocol
  source : SocketAddr
  destination : SocketAddr
  contents : DatagramRecv

def Receive.new (t : Target) (proto : Protocol) (source destination : SocketAddr) (buf : Bytes) :
    Outcome NetError Receive := do
  let contents ← DatagramRecv.tryFrom t buf
  .ok ⟨proto,source,destination,contents⟩

/-- What `run` knows of its own and the TURN server's addresses; there always is a local one. -/
structure Sockets where
  turnAddr : Option SocketAddr
  relayAddr : Option SocketAddr
  localAddrs : List SocketAddr
  localAddrs_ne : localAddrs ≠ []

/-- The loop over the local addresses, up to the first with which the datagram is received. -/
def firstReceive (t : Target) (sender : SocketAddr) (buf : Bytes) :
    List SocketAddr → Panicking (Option Receive)
  | [] => .ok none
  | la :: rest => do
    match ← (Receive.new t .udp sender la buf).attempt with
    | some recv => .ok (some recv)
    | none => firstReceive t sender buf rest

/-- The branch of `run` taken when `recv_from` returns: what is handed to `Rtc::handle_input`. -/
def onRecv (t : Target) (cfg : Sockets) (sender : SocketAddr) (datagram : Bytes) :
    Panicking (Option Receive) :=
  -- the receive buffer holds 65536 bytes
  let pkt := datagram.take 65536
  if cfg.turnAddr = some sender then
    match cfg.relayAddr with
    | some raddr => do
      match ← parseTurnData pkt with
      | some (peerAddr,data) => (Receive.new t .udp peerAddr raddr data).attempt
      | none => .ok none
    | none => .ok none
  else firstReceive t sender pkt cfg.localAddrs

/-- The bytes that are given to the demultiplexer: those that a Data indication relays, or all. -/
def payload? (cfg : Sockets) (sender : SocketAddr) (datagram : Bytes) : Option Bytes :=
  if cfg.turnAddr = some sender then
    if cfg.relayAddr.isSome then (relayed? (datagram.take 65536)).map Prod.snd else none
  else some (datagram.take 65536)

/-- Bytes that the demultiplexer can take: there is one, and in a STUN message with a good header
each attribute that is looked at fits. -/
def Demuxable (t : Target) (payload : Bytes) : Prop :=
  payload ≠ [] ∧ (payload.getD 0 0 < 2 → 20 ≤ payload.length → HeaderOk payload →
    Survives t false (messageTlvs payload))

theorem ofPayloadType_ne_stun (payloadType : UInt8) :
    MultiplexKind.ofPayloadType payloadType ≠ .stun := by
  unfold MultiplexKind.ofPayloadType
  split
  · simp
  · split <;> simp

theorem tryFrom_nil : MultiplexKind.tryFrom [] = .panicked := rfl

/-- On at least one byte the demultiplexer does not panic; it tells STUN by the first byte. -/
theorem tryFrom_of_ne {value : Bytes} (h : value ≠ []) :
    MultiplexKind.tryFrom value ≠ .panicked ∧
    (MultiplexKind.tryFrom value = .ok .stun ↔ value.getD 0 0 < 2 ∧ 20 ≤ value.length) := by
  have hpos := List.length_pos_iff.mpr h
  unfold MultiplexKind.tryFrom
  rw [index_of_lt hpos,ok_bind]
  generalize value.getD 0 0 = byte0
  by_cases h₁ : byte0 < 2 ∧ value.length ≥ 20
  · rw [if_pos h₁]
    exact ⟨by simp,fun _ => h₁,fun _ => rfl⟩
  · rw [if_neg h₁]
    by_cases h₂ : byte0 ≥ 20 ∧ byte0 < 64
    · rw [if_pos h₂]
      exact ⟨by simp,by simp,fun hc => absurd hc h₁⟩
    · rw [if_neg h₂]
      by_cases h₃ : byte0 ≥ 128 ∧ byte0 < 192 ∧ value.length > 2
      · rw [if_pos h₃,index_of_lt (by omega : 1 < value.length),ok_bind]
        refine ⟨by simp,fun h => ?_,fun hc => absurd hc h₁⟩
        exact absurd (Outcome.ok.inj h) (ofPayloadType_ne_stun _)
      · rw [if_neg h₃]
        exact ⟨by simp,by simp,fun hc => absurd hc h₁⟩

theorem datagram_eq_panicked {t : Target} {value : Bytes} :
    DatagramRecv.tryFrom t value = .panicked ↔ ¬ Demuxable t value := by
  by_cases hne : value = []
  · simp [DatagramRecv.tryFrom,Demuxable,hne,tryFrom_nil]
  · obtain ⟨hkind,hstun⟩ := tryFrom_of_ne hne
    unfold DatagramRecv.tryFrom Demuxable
    cases hk : MultiplexKind.tryFrom value with
    | panicked => exact absurd hk hkind
    | err e =>
      rw [hk] at hstun
      simp only [err_bind,reduceCtorEq,false_iff,not_not]
      exact ⟨hne,fun h₁ h₂ => by simpa using hstun.mpr ⟨h₁,h₂⟩⟩
    | ok kind =>
      rw [hk] at hstun
      rw [ok_bind]
      cases kind with
      | stun =>
        obtain ⟨h₁,h₂⟩ := hstun.mp rfl
        simp only [bind_eq_panicked,mapErr_eq_panicked,reduceCtorEq,and_false,exists_false,or_false]
        rw [Message.parse_eq_panicked t h₂]
        simp only [hne,h₁,h₂,ne_eq,not_false_iff,true_and,true_imp_iff,Classical.not_imp]
      | dtls =>
        simp only [reduceCtorEq,false_iff,not_not]
        exact ⟨hne,fun h₁ h₂ => by simpa using hstun.mpr ⟨h₁,h₂⟩⟩
      | rtp =>
        simp only [reduceCtorEq,false_iff,not_not]
        exact ⟨hne,fun h₁ h₂ => by simpa using hstun.mpr ⟨h₁,h₂⟩⟩
      | rtcp =>
        simp only [reduceCtorEq,false_iff,not_not]
        exact ⟨hne,fun h₁ h₂ => by simpa using hstun.mpr ⟨h₁,h₂⟩⟩

theorem receive_eq_panicked {t : Target} {proto : Protocol} {source destination : SocketAddr}
    {buf : Bytes} :
    Receive.new t proto source destination buf = .panicked ↔ ¬ Demuxable t buf := by
  unfold Receive.new
  rw [bind_eq_panicked,datagram_eq_panicked]
  simp

/-- The loop over the local addresses panics at its first pass, or not at all. -/
theorem firstReceive_eq_panicked {t : Target} {sender : SocketAddr} {buf : Bytes}
    {addrs : List SocketAddr} (hne : addrs ≠ []) :
    firstReceive t sender buf addrs = .panicked ↔ ¬ Demuxable t buf := by
  induction addrs with
  | nil => exact absurd rfl hne
  | cons la rest ih =>
    unfold firstReceive
    rw [bind_eq_panicked,attempt_eq_panicked,receive_eq_panicked]
    refine or_iff_left_of_imp ?_
    rintro ⟨recv,_,h⟩
    cases recv with
    | some recv => cases h
    | none =>
      cases rest with
      | nil => cases h
      | cons la' rest => exact (ih (List.cons_ne_nil _ _)).mp h

/-- The receive branch does not panic exactly when what it gives to the demultiplexer can be taken. -/
theorem survives_datagram_iff (t : Target) (cfg : Sockets) (sender : SocketAddr) (datagram : Bytes) :
    onRecv t cfg sender datagram ≠ .panicked ↔
      ∀ payload, payload? cfg sender datagram = some payload → Demuxable t payload := by
  unfold onRecv payload?
  by_cases hturn : cfg.turnAddr = some sender
  · simp only [if_pos hturn]
    cases hrelay : cfg.relayAddr with
    | none => simp
    | some raddr =>
      simp only [parseTurnData_eq,ok_bind,Option.isSome_some,if_true]
      cases relayed? (datagram.take 65536) with
      | none => simp
      | some found =>
        obtain ⟨peerAddr,data⟩ := found
        simp [receive_eq_panicked]
  · simp only [if_neg hturn]
    rw [ne_eq,firstReceive_eq_panicked cfg.localAddrs_ne]
    simp

/-- The release build for a 32-bit device. -/
def armv7 : Target := ⟨false,4294967296,Nat.le_refl _⟩

def host : SocketAddr := ⟨.v4 0xC0A80002,40000⟩

def stranger : SocketAddr := ⟨.v4 0xC0A80063,5555⟩

def turnServer : SocketAddr := ⟨.v4 0xC0A80001,3478⟩

def behindTurn : Sockets where
  turnAddr := some turnServer
  relayAddr := some turnServer
  localAddrs := [host]
  localAddrs_ne := List.cons_ne_nil _ _

/-- A Data indication with an address and an empty DATA. -/
def emptyIndication : Bytes :=
  [0x00,0x17,0x00,0x10,0x21,0x12,0xA4,0x42,0,0,0,0,0,0,0,0,0,0,0,0,
    0x00,0x12,0x00,0x08,0x00,0x01,0x34,0x00,0xE1,0xBA,0xA4,0x43,0x00,0x13,0x00,0x00]

/-- One empty datagram from anywhere, or one empty packet relayed by the TURN server. -/
theorem empty_datagram_panics :
    onRecv armv7 behindTurn stranger [] = .panicked ∧
    onRecv armv7 behindTurn turnServer emptyIndication = .panicked := by
  decide

end Inbound
end AnyKvm
