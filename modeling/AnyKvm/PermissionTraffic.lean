import AnyKvm.Inbound
import AnyKvm.StunClient
import AnyKvm.Transition

/-! The main loop of `webrtc::run` as a reader of its UDP socket.
Datagrams are taken off the socket at two places: in the `select` at the end of the loop, and in the wait of
`turn_create_permission`, which hands none of them on. -/
namespace AnyKvm
namespace Traffic

open Transition Outcome Bytes
open Stun (Target)
open Turn (IpAddr SocketAddr TurnState Buffer Arrival relayed?)
open Inbound (Sockets Receive onRecv firstReceive)

/-- What comes in on the socket: UDP carries at most 65507 bytes. -/
structure Datagram where
  sender : SocketAddr
  bytes : Bytes
  fits : bytes.length ≤ 65507
  deriving DecidableEq

structure Request where
  server : SocketAddr
  bytes : Bytes
  deriving DecidableEq

def typeField (msg : Bytes) : UInt16 := u16FromBeBytes (msg.getD 0 0) (msg.getD 1 0)

/-- A success or error response of the server: of the method of the request, with its transaction ID. -/
def Request.AnsweredBy (r : Request) (d : Datagram) : Prop :=
  d.sender = r.server ∧ 20 ≤ d.bytes.length ∧
    (typeField d.bytes = typeField r.bytes ||| 0x0100 ∨ typeField d.bytes = typeField r.bytes ||| 0x0110) ∧
    (d.bytes.drop 4).take 4 = Turn.u32ToBeBytes Turn.stunMagic ∧ Turn.txnId d.bytes = Turn.txnId r.bytes

instance (r : Request) (d : Datagram) : Decidable (r.AnsweredBy d) := inferInstanceAs (Decidable (_ ∧ _))

/-- What `run` brings into the loop: its addresses, `turn_state` and `relay_addr`, which are set together, and
the TURN requests that have had no answer yet. -/
structure Setup where
  localAddrs : List SocketAddr
  localAddrs_ne : localAddrs ≠ []
  turn : Option (TurnState × SocketAddr)
  unanswered : List Request

def Setup.sockets (cfg : Setup) : Sockets where
  turnAddr := cfg.turn.map fun turn => turn.1.turnAddr
  relayAddr := cfg.turn.map Prod.snd
  localAddrs := cfg.localAddrs
  localAddrs_ne := cfg.localAddrs_ne

/-- Where `run` is: in the loop over `remote_cand_rx.try_recv`, in the wait of `turn_create_permission`, at the
refresh check, in the loop over `poll_output`, in the `select`, or gone. -/
inductive Point
  | candidates
  | permission (ts : TurnState) (peerIp : IpAddr) (deadline : ℕ) (buf : Buffer 512)
  | refreshCheck | polling | selecting | ended

/-- A datagram that has been taken off the socket, with the requests that were waiting for an answer, and the
source, the destination and the bytes that `Receive::new` was given for it. -/
structure Receipt where
  datagram : Datagram
  outstanding : List Request
  given : Option (SocketAddr × SocketAddr × Bytes)

/-- Times are in milliseconds since the loop was entered; the last two fields are history. -/
structure State where
  point : Point := .candidates
  now : ℕ := 0
  turnPerms : List IpAddr := []
  turnRefreshAt : ℕ := 240000
  outstanding : List Request := []
  receipts : List Receipt := []

inductive Action
  | tick (ms : ℕ)
  | candidate (ip : Option IpAddr) (nanos : ℕ) (sent : Bool)
  | drained
  | checkRefresh (nanos : ℕ) (sent : Bool)
  | polled
  | timer
  | receive (d : Datagram)
  | socketError
  | timeout
  | quit

/-- The first call of `Receive::new` that a datagram gets to in the `select`. -/
def offer? (cfg : Setup) (d : Datagram) : Option (SocketAddr × SocketAddr × Bytes) :=
  let direct := (d.sender,cfg.localAddrs.head cfg.localAddrs_ne,d.bytes)
  match cfg.turn with
  | some (ts,raddr) =>
    if d.sender = ts.turnAddr then (relayed? d.bytes).map fun (peer,data) => (peer,raddr,data)
    else some direct
  | none => some direct

section Step
variable (md5Hash : Bytes → Bytes) (hmacSha1 : Bytes → Bytes → Bytes) (t : Target) (cfg : Setup)

namespace State
variable (s : State)

def send (server : SocketAddr) (bytes : Bytes) : State :=
  { s with outstanding := ⟨server,bytes⟩ :: s.outstanding }

def take (d : Datagram) (given : Option (SocketAddr × SocketAddr × Bytes)) : State :=
  { s with
    outstanding := s.outstanding.eraseP fun r => r.AnsweredBy d
    receipts := ⟨d,s.outstanding,given⟩ :: s.receipts }

/-- A trickled candidate, if it can be read: a permission is asked for its IP unless there is one noted. -/
def candidate (ip : Option IpAddr) (nanos : ℕ) (sent : Bool) : State :=
  match cfg.turn,ip with
  | some (ts,_),some ip =>
    if ip ∉ s.turnPerms ∧ sent = true then
      { s.send ts.turnAddr (Turn.createPermissionRequest md5Hash hmacSha1 ts ip nanos) with
        point := .permission ts ip (s.now + 2000) (.zeros 512) }
    else s
  | _,_ => s

/-- The wait is over, and its result is always `Ok`. -/
def permitted (peerIp : IpAddr) : State := { s with point := .candidates, turnPerms := peerIp :: s.turnPerms }

/-- `recv_from` in the wait: two types of message from the server end it. -/
def recvWaiting (ts : TurnState) (peerIp : IpAddr) (deadline : ℕ) (buf : Buffer 512) (d : Datagram) : State :=
  let buf := buf.store d.bytes
  if d.sender = ts.turnAddr ∧ (buf.msgType = 0x0108 ∨ buf.msgType = 0x0118) then
    (s.take d none).permitted peerIp
  else { s.take d none with point := .permission ts peerIp deadline buf }

/-- `recv_from` in the `select`; a panic ends the agent. -/
def recvSelecting (d : Datagram) : State :=
  match onRecv t cfg.sockets d.sender d.bytes with
  | .ok _ => { s.take d (offer? cfg d) with point := .candidates }
  | _ => { s.take d (offer? cfg d) with point := .ended }

/-- The refresh timer: `turn_refresh` does not wait. -/
def checkRefresh (nanos : ℕ) (sent : Bool) : State :=
  match cfg.turn with
  | some (ts,_) =>
    if s.turnRefreshAt ≤ s.now then
      { (if sent then s.send ts.turnAddr (Turn.refreshRequest md5Hash hmacSha1 ts nanos) else s) with
        point := .polling, turnRefreshAt := s.now + 240000 }
    else { s with point := .polling }
  | none => { s with point := .polling }

end State

def step (s : State) : Action → Option State
  | .tick ms => some { s with now := s.now + ms }
  | .candidate ip nanos sent => match s.point with
    | .candidates => some (s.candidate md5Hash hmacSha1 cfg ip nanos sent)
    | _ => none
  | .drained => match s.point with
    | .candidates => some { s with point := .refreshCheck }
    | _ => none
  | .checkRefresh nanos sent => match s.point with
    | .refreshCheck => some (s.checkRefresh md5Hash hmacSha1 cfg nanos sent)
    | _ => none
  | .polled => match s.point with
    | .polling => some { s with point := .selecting }
    | _ => none
  | .timer => match s.point with
    | .selecting => some { s with point := .candidates }
    | _ => none
  | .receive d => match s.point with
    | .permission ts peerIp deadline buf => some (s.recvWaiting ts peerIp deadline buf d)
    | .selecting => some (s.recvSelecting t cfg d)
    | _ => none
  | .socketError => match s.point with
    | .permission _ peerIp _ _ => some (s.permitted peerIp)
    | .selecting => some { s with point := .candidates }
    | _ => none
  | .timeout => match s.point with
    | .permission _ peerIp deadline _ => if deadline ≤ s.now then some (s.permitted peerIp) else none
    | _ => none
  | .quit => match s.point with
    | .ended => none
    | _ => some { s with point := .ended }

def start : State := { outstanding := cfg.unanswered }

end Step

def Awaited (outstanding : List Request) (d : Datagram) : Prop := ∃ r ∈ outstanding, r.AnsweredBy d

/-- str0m has been given the datagram as it is, or what it relays from its peer. -/
def Receipt.Handed (r : Receipt) : Prop := ∃ source destination data, r.given = some (source,destination,data) ∧
  ((source,data) = (r.datagram.sender,r.datagram.bytes) ∨ relayed? r.datagram.bytes = some (source,data))

/-- Whatever has come in and answers no request has been handed to str0m. -/
def NoneLost (_ : List Action) (s : State) : Prop :=
  ∀ r ∈ s.receipts, ¬ Awaited r.outstanding r.datagram → r.Handed

/-- In the wait nothing comes in but answers to requests, and in the `select` nothing else from the TURN server
than these and Data indications that can be read. -/
def OnlyAnswers (cfg : Setup) (_ : List Action) (s : State) : Action → Prop
  | .receive d => ¬ Awaited s.outstanding d → match s.point with
    | .permission _ _ _ _ => False
    | _ => cfg.sockets.turnAddr = some d.sender → (relayed? d.bytes).isSome = true
  | _ => True

variable {md5Hash : Bytes → Bytes} {hmacSha1 : Bytes → Bytes → Bytes} {t : Target} {cfg : Setup}
variable {as : List Action} {s s' : State} {a : Action}

/-- The demultiplexer does not look at the addresses, so the first local address decides. -/
theorem firstReceive_cons (t : Target) (sender la : SocketAddr) (buf : Bytes) (rest : List SocketAddr) :
    firstReceive t sender buf (la :: rest) = (Receive.new t .udp sender la buf).attempt := by
  cases hcontents : Inbound.DatagramRecv.tryFrom t buf with
  | ok contents =>
    rw [firstReceive,Receive.new,hcontents]
    rfl
  | panicked =>
    rw [firstReceive,Receive.new,hcontents]
    rfl
  | err e =>
    have hrefused : ∀ addrs, firstReceive t sender buf addrs = .ok none := by
      intro addrs
      induction addrs with
      | nil => rfl
      | cons la addrs ih =>
        rw [firstReceive,Receive.new,hcontents]
        exact ih
    rw [hrefused,Receive.new,hcontents]
    rfl

/-- The branch gives `Rtc::handle_input` what `Receive::new` makes of the offer. -/
theorem onRecv_eq (t : Target) (cfg : Setup) (d : Datagram) :
    onRecv t cfg.sockets d.sender d.bytes = match offer? cfg d with
      | some (source,destination,data) => (Receive.new t .udp source destination data).attempt
      | none => .ok none := by
  have hwhole : d.bytes.take 65536 = d.bytes := List.take_of_length_le (d.fits.trans (by decide))
  have hlocal : firstReceive t d.sender d.bytes cfg.localAddrs =
      (Receive.new t .udp d.sender (cfg.localAddrs.head cfg.localAddrs_ne) d.bytes).attempt := by
    rw [← firstReceive_cons t _ _ _ cfg.localAddrs.tail,List.cons_head_tail]
  rw [onRecv,hwhole,offer?]
  cases hturn : cfg.turn with
  | none =>
    simp only [Setup.sockets,hturn,Option.map_none]
    exact hlocal
  | some turn =>
    obtain ⟨ts,raddr⟩ := turn
    simp only [Setup.sockets,hturn,Option.map_some,Option.some.injEq]
    by_cases hserver : d.sender = ts.turnAddr
    · rw [if_pos hserver.symm,if_pos hserver,Turn.parseTurnData_eq]
      cases relayed? d.bytes with
      | none => rfl
      | some found => rfl
    · rw [if_neg (Ne.symm hserver),if_neg hserver]
      exact hlocal

theorem handed_iff (outstanding : List Request) (d : Datagram) :
    Receipt.Handed ⟨d,outstanding,offer? cfg d⟩ ↔
      (cfg.sockets.turnAddr = some d.sender → (relayed? d.bytes).isSome = true) := by
  unfold Receipt.Handed offer?
  cases hturn : cfg.turn with
  | none => simp [Setup.sockets,hturn]
  | some turn =>
    obtain ⟨ts,raddr⟩ := turn
    simp only [Setup.sockets,hturn,Option.map_some,Option.some.injEq]
    by_cases hserver : d.sender = ts.turnAddr
    · rw [if_pos hserver]
      cases hrelayed : relayed? d.bytes with
      | none => simp [hserver]
      | some found => simp
    · simp [hserver,Ne.symm hserver]

/-- What a step does to the history of what has come in. -/
inductive ReceiptStep (cfg : Setup) (s s' : State) : Action → Prop
  | waiting (d : Datagram) (ts : TurnState) (peerIp : IpAddr) (deadline : ℕ) (buf : Buffer 512)
      (hpoint : s.point = .permission ts peerIp deadline buf)
      (h : s'.receipts = ⟨d,s.outstanding,none⟩ :: s.receipts) : ReceiptStep cfg s s' (.receive d)
  | selecting (d : Datagram) (hpoint : s.point = .selecting)
      (h : s'.receipts = ⟨d,s.outstanding,offer? cfg d⟩ :: s.receipts) : ReceiptStep cfg s s' (.receive d)
  | quiet {a : Action} (ha : ∀ d, a ≠ .receive d) (h : s'.receipts = s.receipts) : ReceiptStep cfg s s' a

theorem receipts_candidate (ip : Option IpAddr) (nanos : ℕ) (sent : Bool) :
    (s.candidate md5Hash hmacSha1 cfg ip nanos sent).receipts = s.receipts := by
  unfold State.candidate
  split
  · split <;> rfl
  · rfl

theorem receipts_checkRefresh (nanos : ℕ) (sent : Bool) :
    (s.checkRefresh md5Hash hmacSha1 cfg nanos sent).receipts = s.receipts := by
  unfold State.checkRefresh
  split
  · split
    · cases sent <;> rfl
    · rfl
  · rfl

theorem receipts_recvWaiting (ts : TurnState) (peerIp : IpAddr) (deadline : ℕ) (buf : Buffer 512) (d : Datagram) :
    (s.recvWaiting ts peerIp deadline buf d).receipts = ⟨d,s.outstanding,none⟩ :: s.receipts := by
  unfold State.recvWaiting
  simp only
  split <;> rfl

theorem receipts_recvSelecting (d : Datagram) :
    (s.recvSelecting t cfg d).receipts = ⟨d,s.outstanding,offer? cfg d⟩ :: s.receipts := by
  unfold State.recvSelecting
  split <;> rfl

theorem receiptStep (hs : step md5Hash hmacSha1 t cfg s a = some s') : ReceiptStep cfg s s' a := by
  cases a with
  | tick ms =>
    cases hs
    exact .quiet nofun rfl
  | candidate ip nanos sent =>
    simp only [step] at hs
    split at hs
    · cases hs
      exact .quiet nofun (receipts_candidate ip nanos sent)
    · cases hs
  | checkRefresh nanos sent =>
    simp only [step] at hs
    split at hs
    · cases hs
      exact .quiet nofun (receipts_checkRefresh nanos sent)
    · cases hs
  | receive d =>
    simp only [step] at hs
    split at hs
    · rename_i ts peerIp deadline buf hpoint
      cases hs
      exact .waiting d ts peerIp deadline buf hpoint (receipts_recvWaiting ts peerIp deadline buf d)
    · rename_i hpoint
      cases hs
      exact .selecting d hpoint (receipts_recvSelecting d)
    · cases hs
  | socketError =>
    simp only [step] at hs
    split at hs <;> cases hs <;> exact .quiet nofun rfl
  | timeout =>
    simp only [step] at hs
    split at hs
    · split at hs
      · cases hs
        exact .quiet nofun rfl
      · cases hs
    · cases hs
  | quit =>
    simp only [step] at hs
    split at hs
    · cases hs
    · cases hs
      exact .quiet nofun rfl
  | drained | polled | timer =>
    simp only [step] at hs
    split at hs
    · cases hs
      exact .quiet nofun rfl
    · cases hs

theorem noneLost_cons (h : NoneLost as s) {r : Receipt} (hreceipts : s'.receipts = r :: s.receipts) :
    NoneLost (a :: as) s' ↔ (¬ Awaited r.outstanding r.datagram → r.Handed) := by
  unfold NoneLost
  rw [hreceipts,List.forall_mem_cons]
  exact and_iff_left h

theorem noneLost_step (h : NoneLost as s) (hs : step md5Hash hmacSha1 t cfg s a = some s') :
    OnlyAnswers cfg as s a ↔ NoneLost (a :: as) s' := by
  cases receiptStep hs with
  | waiting d ts peerIp deadline buf hpoint hreceipts =>
    have hlost : ¬ Receipt.Handed ⟨d,s.outstanding,none⟩ := by
      rintro ⟨_,_,_,hgiven,_⟩
      cases hgiven
    rw [noneLost_cons h hreceipts]
    simp only [OnlyAnswers,hpoint,hlost]
  | selecting d hpoint hreceipts =>
    rw [noneLost_cons h hreceipts]
    simp only [OnlyAnswers,hpoint,handed_iff]
  | quiet ha hreceipts =>
    have hkept : NoneLost (a :: as) s' := by
      unfold NoneLost
      rw [hreceipts]
      exact h
    refine iff_of_true ?_ hkept
    cases a with
    | receive d => exact absurd rfl (ha d)
    | _ => trivial

/-- In every run of the loop all that comes in, answers aside, is handed to str0m exactly if only answers come
in during the waits for permissions, and only answers and Data indications from the TURN server. -/
theorem none_lost_iff (hrun : Run (step md5Hash hmacSha1 t cfg) (start cfg) as s) :
    Always (step md5Hash hmacSha1 t cfg) (start cfg) NoneLost as ↔
      GuardedRun (step md5Hash hmacSha1 t cfg) (start cfg) (OnlyAnswers cfg) as s := by
  apply hrun.always_iff_guarded
  · intro r hr
    cases hr
  · intro as s a s' _ hnone hs
    exact noneLost_step hnone hs

/-- A session with a relay candidate. -/
def relayedSetup : Setup where
  localAddrs := Inbound.behindTurn.localAddrs
  localAddrs_ne := Inbound.behindTurn.localAddrs_ne
  turn := some (⟨Inbound.turnServer,[0x72],[0x6E],"kvm","kvm"⟩,⟨.v4 0xC0A80001,50000⟩)
  unanswered := []

/-- A packet of DTLS that the browser sends to a host candidate. -/
def peerPacket : Datagram := ⟨Inbound.stranger,[22,254,253],by decide⟩

def permissionAnswer : Datagram := ⟨Inbound.turnServer,Turn.stunHeader 0x0108 0 (Turn.genTxnId 5),by decide⟩

/-- The answer to a CreatePermission comes first, and the packet of the browser in the `select`. -/
def packetAfterAnswer : List Action :=
  [.candidate (some (.v4 0xC0A80063)) 5 true,.receive permissionAnswer,.drained,.checkRefresh 6 true,.polled,
    .receive peerPacket]

theorem none_lost_iff_packetAfterAnswer :
    ∃ s, Run (step (fun _ => []) (fun _ _ => []) Inbound.armv7 relayedSetup) (start relayedSetup)
        packetAfterAnswer.reverse s ∧
      (Always (step (fun _ => []) (fun _ _ => []) Inbound.armv7 relayedSetup) (start relayedSetup) NoneLost
          packetAfterAnswer.reverse ↔
        GuardedRun (step (fun _ => []) (fun _ _ => []) Inbound.armv7 relayedSetup) (start relayedSetup)
          (OnlyAnswers relayedSetup) packetAfterAnswer.reverse s) := by
  obtain ⟨s,hrun,_⟩ := exists_run_of_replay (step (fun _ => []) (fun _ _ => []) Inbound.armv7 relayedSetup)
    (start relayedSetup) packetAfterAnswer (fun s => s.outstanding = [] ∧ s.receipts.length = 2) (by decide)
  exact ⟨s,hrun,none_lost_iff hrun⟩

/-- The packet of the browser comes in while the answer to a CreatePermission is waited for. -/
def packetInWait : List Action := [.candidate (some (.v4 0xC0A80063)) 5 true,.receive peerPacket]

/-- It is no answer to a request, and it is dropped. -/
theorem waiting_drops_packet : ¬ ∀ md5Hash hmacSha1 t cfg as s,
    Run (step md5Hash hmacSha1 t cfg) (start cfg) as s → NoneLost as s := by
  intro h
  obtain ⟨s,hrun,hp⟩ := exists_run_of_replay (step (fun _ => []) (fun _ _ => []) Inbound.armv7 relayedSetup)
    (start relayedSetup) packetInWait (fun s => s.receipts.any fun r =>
      r.given = none ∧ r.outstanding.all fun q => ¬ q.AnsweredBy r.datagram) (by decide)
  obtain ⟨r,hr,hlost⟩ := List.any_eq_true.mp hp
  obtain ⟨hgiven,hnone⟩ := of_decide_eq_true hlost
  have hawaited : ¬ Awaited r.outstanding r.datagram := by
    rintro ⟨q,hq,hanswered⟩
    exact of_decide_eq_true (List.all_eq_true.mp hnone q hq) hanswered
  obtain ⟨_,_,_,hsome,_⟩ := h _ _ _ _ _ s hrun r hr hawaited
  rw [hgiven] at hsome
  cases hsome

def packets (incoming : List Arrival) : List (SocketAddr × Bytes) :=
  incoming.filterMap fun a => a.packet.toOption

def permissionEnds (buf : Buffer 512) : Bool := buf.msgType = 0x0108 ∨ buf.msgType = 0x0118

/-- The same state at a later time. -/
def State.sleepUntil (s : State) (time : ℕ) : State := { s with now := max s.now time }

/-- The loop comes back from a wait at a time, having taken datagrams off the socket and dropped them. -/
structure Returned (s : State) (peerIp : IpAddr) (now : ℕ) (taken : List (SocketAddr × Bytes)) (s' : State) :
    Prop where
  point : s'.point = .candidates
  turnPerms : s'.turnPerms = peerIp :: s.turnPerms
  now : s'.now = now
  dropped : ∃ lost, s'.receipts = lost ++ s.receipts ∧ (∀ r ∈ lost, r.given = none) ∧
    lost.reverse.map (fun r => (r.datagram.sender,r.datagram.bytes)) = taken

variable {ts : TurnState} {peerIp : IpAddr} {deadline now time : ℕ} {buf : Buffer 512}
variable {taken : List (SocketAddr × Bytes)}

theorem returned_permitted (s : State) (peerIp : IpAddr) : Returned s peerIp s.now [] (s.permitted peerIp) :=
  ⟨rfl,rfl,rfl,[],rfl,nofun,rfl⟩

theorem Returned.of_same {mid : State} (h : Returned mid peerIp now taken s') (hperms : mid.turnPerms = s.turnPerms)
    (hreceipts : mid.receipts = s.receipts) : Returned s peerIp now taken s' :=
  ⟨h.point,hperms ▸ h.turnPerms,h.now,hreceipts ▸ h.dropped⟩

theorem Returned.of_take {mid : State} {d : Datagram} (h : Returned mid peerIp now taken s')
    (hperms : mid.turnPerms = s.turnPerms) (hreceipts : mid.receipts = ⟨d,s.outstanding,none⟩ :: s.receipts) :
    Returned s peerIp now ((d.sender,d.bytes) :: taken) s' := by
  obtain ⟨lost,hlost,hnone,htaken⟩ := h.dropped
  refine ⟨h.point,hperms ▸ h.turnPerms,h.now,lost ++ [⟨d,s.outstanding,none⟩],?_,?_,?_⟩
  · rw [hlost,hreceipts,List.append_assoc,List.singleton_append]
  · intro r hr
    rcases List.mem_append.mp hr with hr | hr
    · exact hnone r hr
    · rw [List.mem_singleton.mp hr]
  · rw [List.reverse_append,List.map_append,htaken]
    rfl

theorem run_sleepUntil (s : State) (time : ℕ) :
    Run (step md5Hash hmacSha1 t cfg) s [.tick (time - s.now)] (s.sleepUntil time) := by
  have hmax : s.now + (time - s.now) = max s.now time := by omega
  refine .single ?_
  rw [State.sleepUntil,← hmax]
  rfl

theorem run_timeout (hpoint : s.point = .permission ts peerIp deadline buf) (hnow : s.now ≤ deadline) :
    ∃ as s', Run (step md5Hash hmacSha1 t cfg) s as s' ∧ Returned s peerIp deadline [] s' := by
  have hlate : (s.sleepUntil deadline).now = deadline := max_eq_right hnow
  have hstep : step md5Hash hmacSha1 t cfg (s.sleepUntil deadline) .timeout =
      some ((s.sleepUntil deadline).permitted peerIp) := by
    have hpoint' : (s.sleepUntil deadline).point = .permission ts peerIp deadline buf := hpoint
    simp only [step,hpoint',hlate,le_refl,if_true]
  have hreturned := returned_permitted (s.sleepUntil deadline) peerIp
  rw [hlate] at hreturned
  exact ⟨_,_,(run_sleepUntil s deadline).next hstep,hreturned.of_same rfl rfl⟩

theorem recvWaiting_of_ends {d : Datagram} (hsender : d.sender = ts.turnAddr)
    (hends : permissionEnds (buf.store d.bytes) = true) :
    s.recvWaiting ts peerIp deadline buf d = (s.take d none).permitted peerIp :=
  if_pos ⟨hsender,of_decide_eq_true hends⟩

theorem recvWaiting_of_goes_on {d : Datagram}
    (hends : ¬ (d.sender = ts.turnAddr ∧ permissionEnds (buf.store d.bytes) = true)) :
    s.recvWaiting ts peerIp deadline buf d =
      { s.take d none with point := .permission ts peerIp deadline (buf.store d.bytes) } :=
  if_neg fun h => hends ⟨h.1,decide_eq_true h.2⟩

/-- The wait of the loop takes from the socket what `recvLoop` takes, and returns when that returns. -/
theorem run_wait (incoming : List Arrival) (hfits : ∀ p ∈ packets incoming, p.2.length ≤ 65507)
    (hpoint : s.point = .permission ts peerIp deadline buf) (hnow : s.now ≤ deadline) :
    ∃ as s' taken, Run (step md5Hash hmacSha1 t cfg) s as s' ∧
      packets incoming = taken ++
        packets (Turn.recvLoop ts.turnAddr deadline permissionEnds buf s.now incoming).socket.incoming ∧
      Returned s peerIp (Turn.recvLoop ts.turnAddr deadline permissionEnds buf s.now incoming).socket.now taken s' := by
  induction incoming generalizing s buf with
  | nil =>
    obtain ⟨as,s',hrun,hreturned⟩ := run_timeout hpoint hnow
    exact ⟨as,s',[],hrun,rfl,hreturned⟩
  | cons a rest ih =>
    rw [Turn.recvLoop]
    by_cases hlate : deadline < a.time
    · obtain ⟨as,s',hrun,hreturned⟩ := run_timeout hpoint hnow
      rw [if_pos hlate]
      exact ⟨as,s',[],hrun,rfl,hreturned⟩
    rw [if_neg hlate]
    have hsleep : Run (step md5Hash hmacSha1 t cfg) s _ (s.sleepUntil a.time) := run_sleepUntil s a.time
    have hpoint' : (s.sleepUntil a.time).point = .permission ts peerIp deadline buf := hpoint
    cases hpacket : a.packet with
    | error e =>
      have hstep : step md5Hash hmacSha1 t cfg (s.sleepUntil a.time) .socketError =
          some ((s.sleepUntil a.time).permitted peerIp) := by
        simp only [step,hpoint']
      have hreturned := returned_permitted (s.sleepUntil a.time) peerIp
      refine ⟨_,_,[],hsleep.next hstep,?_,hreturned.of_same rfl rfl⟩
      rw [packets,List.filterMap_cons,hpacket]
      rfl
    | ok packet =>
      obtain ⟨source,data⟩ := packet
      have hpackets : packets (a :: rest) = (source,data) :: packets rest := by
        rw [packets,List.filterMap_cons,hpacket]
        rfl
      rw [hpackets] at hfits ⊢
      let d : Datagram := ⟨source,data,hfits _ List.mem_cons_self⟩
      have hstep : step md5Hash hmacSha1 t cfg (s.sleepUntil a.time) (.receive d) =
          some ((s.sleepUntil a.time).recvWaiting ts peerIp deadline buf d) := by
        simp only [step,hpoint']
      simp only
      by_cases hends : source = ts.turnAddr ∧ permissionEnds (buf.store data) = true
      · rw [if_pos hends]
        rw [recvWaiting_of_ends (d := d) hends.1 hends.2] at hstep
        have hreturned := returned_permitted ((s.sleepUntil a.time).take d none) peerIp
        have htook := hreturned.of_take (s := s.sleepUntil a.time) (d := d) rfl rfl
        exact ⟨_,_,_,hsleep.next hstep,rfl,htook.of_same rfl rfl⟩
      · rw [if_neg hends]
        rw [recvWaiting_of_goes_on (d := d) hends] at hstep
        have hearlier : max s.now a.time ≤ deadline := max_le hnow (Nat.not_lt.mp hlate)
        obtain ⟨as,s',taken,hrun,htaken,hreturned⟩ := ih (s := { (s.sleepUntil a.time).take d none with
          point := .permission ts peerIp deadline (buf.store data) })
          (fun p hp => hfits p (List.mem_cons_of_mem _ hp)) rfl hearlier
        have htook := hreturned.of_take (s := s.sleepUntil a.time) (d := d) rfl rfl
        refine ⟨_,s',_,(hsleep.next hstep).trans hrun,?_,htook.of_same rfl rfl⟩
        rw [htaken]
        rfl

/-- A call of `turn_create_permission` as the loop makes it: all that the call takes off the socket is dropped. -/
theorem run_turnCreatePermission {raddr : SocketAddr} (hturn : cfg.turn = some (ts,raddr))
    (hpoint : s.point = .candidates) (hnew : peerIp ∉ s.turnPerms) (nanos : ℕ) (incoming : List Arrival)
    (hfits : ∀ p ∈ packets incoming, p.2.length ≤ 65507) :
    ∃ as s' taken, Run (step md5Hash hmacSha1 t cfg) s as s' ∧
      packets incoming = taken ++
        packets (Turn.turnCreatePermission md5Hash hmacSha1 ts peerIp nanos ⟨s.now,incoming⟩).2.incoming ∧
      Returned s peerIp (Turn.turnCreatePermission md5Hash hmacSha1 ts peerIp nanos ⟨s.now,incoming⟩).2.now
        taken s' := by
  let asking : State := { s.send ts.turnAddr (Turn.createPermissionRequest md5Hash hmacSha1 ts peerIp nanos) with
    point := .permission ts peerIp (s.now + 2000) (.zeros 512) }
  have hstep : step md5Hash hmacSha1 t cfg s (.candidate (some peerIp) nanos true) = some asking := by
    simp only [step,hpoint,State.candidate,hturn]
    rw [if_pos ⟨hnew,trivial⟩]
  obtain ⟨as,s',taken,hrun,htaken,hreturned⟩ := run_wait (s := asking) incoming hfits rfl (Nat.le_add_right _ _)
  exact ⟨_,s',taken,(Run.single hstep).trans hrun,htaken,hreturned.of_same rfl rfl⟩

end Traffic
end AnyKvm
