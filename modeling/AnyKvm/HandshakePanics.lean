import AnyKvm.Gathering
import AnyKvm.ResponseMatching

/-! The calls of `webrtc.rs` that wait for an answer, with every read of a buffer as one that panics out of
range. The reads of the waits are in range; those of the parsers are, but for the type of the second answer
in `turn_allocate`. -/
namespace AnyKvm
namespace Turn

open Outcome Bytes TlvWalk Gathering

section Reading
variable {ε α : Type} {cap : ℕ}

def readMsgType (buf : Buffer cap) : Outcome ε UInt16 := do
  .ok (u16FromBeBytes (← index buf.val 0) (← index buf.val 1))

/-- `recvLoop`, with the reads of the test that ends it. -/
def recvLoopReading (addr : SocketAddr) (deadline : ℕ) (ends : Buffer cap → Outcome ε Bool) :
    Buffer cap → ℕ → List Arrival → Outcome ε (Waited cap)
  | buf,_,[] => .ok ⟨.timeout,buf,⟨deadline,[]⟩⟩
  | buf,now,a :: rest =>
    if deadline < a.time then .ok ⟨.timeout,buf,⟨deadline,a :: rest⟩⟩
    else match a.packet with
      | .error e => .ok ⟨.failed e,buf,⟨max now a.time,rest⟩⟩
      | .ok (source,data) =>
        let buf := buf.store data
        if source = addr then do
          if ← ends buf then .ok ⟨.datagram (min data.length cap),buf,⟨max now a.time,rest⟩⟩
          else recvLoopReading addr deadline ends buf (max now a.time) rest
        else recvLoopReading addr deadline ends buf (max now a.time) rest

/-- `answer`, with the slice of the buffer that is parsed. -/
def answerReading (w : Waited cap) (timeout : String) (parse : Bytes → Outcome String α) : Outcome String α :=
  match w.ending with
  | .datagram n => do parse (← slice w.buf.val 0 n)
  | .failed e => .err e
  | .timeout => .err timeout

variable {addr : SocketAddr} {deadline now : ℕ} {ends : Buffer cap → Bool} {buf : Buffer cap}
  {incoming : List Arrival}

theorem readMsgType_eq (hcap : 2 ≤ cap) (buf : Buffer cap) :
    (readMsgType buf : Outcome ε UInt16) = .ok buf.msgType := by
  have hlength := buf.property
  rw [readMsgType,index_of_lt (by omega),index_of_lt (by omega)]
  rfl

theorem recvLoopReading_eq {reading : Buffer cap → Outcome ε Bool} (h : ∀ buf, reading buf = .ok (ends buf))
    (buf : Buffer cap) (now : ℕ) (incoming : List Arrival) :
    recvLoopReading addr deadline reading buf now incoming =
      .ok (recvLoop addr deadline ends buf now incoming) := by
  induction incoming generalizing buf now with
  | nil => rfl
  | cons a rest ih =>
    rw [recvLoopReading,recvLoop]
    by_cases hlate : deadline < a.time
    · rw [if_pos hlate,if_pos hlate]
    · rw [if_neg hlate,if_neg hlate]
      cases a.packet with
      | error e => rfl
      | ok packet =>
        obtain ⟨source,data⟩ := packet
        dsimp only
        by_cases hsource : source = addr
        · rw [if_pos hsource,h,ok_bind]
          cases hends : ends (buf.store data) with
          | true => rw [if_pos rfl,if_pos ⟨hsource,rfl⟩]
          | false => rw [if_neg Bool.false_ne_true,if_neg fun hc => Bool.false_ne_true hc.2,ih]
        · rw [if_neg hsource,if_neg fun hc => hsource hc.1,ih]

theorem recvLoop_datagram_le {n : ℕ} (h : (recvLoop addr deadline ends buf now incoming).ending = .datagram n) :
    n ≤ cap := by
  induction incoming generalizing buf now with
  | nil => cases h
  | cons a rest ih =>
    rw [recvLoop] at h
    split at h
    · cases h
    · split at h
      · cases h
      · simp only at h
        split at h
        · cases h
          exact Nat.min_le_right _ _
        · exact ih h

theorem answerReading_eq {w : Waited cap} (h : ∀ n, w.ending = .datagram n → n ≤ cap) (timeout : String)
    (parse : Bytes → Outcome String α) : answerReading w timeout parse = answer w timeout parse := by
  unfold answerReading answer
  cases hending : w.ending with
  | datagram n =>
    have hn : n ≤ w.buf.val.length := by
      rw [w.buf.property]
      exact h n hending
    change (slice _ 0 n >>= parse) = _
    rw [slice_of_le (Nat.zero_le n) hn,ok_bind,List.drop_zero,Nat.sub_zero]
    rfl
  | failed e => rfl
  | timeout => rfl

end Reading

def nextFrom? (addr : SocketAddr) (deadline : ℕ) : ℕ → List Arrival → Option (Bytes × Socket)
  | _,[] => none
  | now,a :: rest =>
    if deadline < a.time then none
    else match a.packet with
      | .error _ => none
      | .ok (source,data) =>
        if source = addr then some (data,⟨max now a.time,rest⟩)
        else nextFrom? addr deadline (max now a.time) rest

theorem reply?_recvLoop {cap : ℕ} (addr : SocketAddr) (deadline : ℕ) (buf : Buffer cap) (now : ℕ)
    (incoming : List Arrival) : let w := recvLoop addr deadline (fun _ => true) buf now incoming
    (reply? w).map (·,w.socket) =
      (nextFrom? addr deadline now incoming).map fun (data,s) => (data.take cap,s) := by
  induction incoming generalizing buf now with
  | nil => rfl
  | cons a rest ih =>
    rw [recvLoop,nextFrom?]
    by_cases hlate : deadline < a.time
    · rw [if_pos hlate,if_pos hlate]
      rfl
    · rw [if_neg hlate,if_neg hlate]
      cases a.packet with
      | error e => rfl
      | ok packet =>
        obtain ⟨source,data⟩ := packet
        dsimp only
        by_cases hsource : source = addr
        · rw [if_pos hsource,if_pos ⟨hsource,rfl⟩]
          change some (Buffer.received _ _,_) = some (_,_)
          rw [received_store]
        · rw [if_neg hsource,if_neg fun hc => hsource hc.1]
          exact ih _ _

/-- What a TURN server sends second, if what it sends first has REALM and NONCE: each within three seconds. -/
def secondFrom? (addr : SocketAddr) (s : Socket) : Option Bytes := do
  let (data,s) ← nextFrom? addr (s.now + 3000) s.now s.incoming
  match parseTurnError401 (data.take 1024) with
  | .ok _ => (nextFrom? addr (s.now + 3000) s.now s.incoming).map (·.1)
  | _ => none

theorem secondReply?_eq (md5Hash : Bytes → Bytes) (hmacSha1 : Bytes → Bytes → Bytes) (addr : SocketAddr)
    (user pass : String) (nanos₁ nanos₂ : ℕ) (s : Socket) :
    secondReply? md5Hash hmacSha1 addr user pass nanos₁ nanos₂ s =
      (secondFrom? addr s).map (·.take 1024) := by
  let w₁ := (allocateExchange₁ addr nanos₁).wait (.zeros 1024) s
  have hfirst := reply?_recvLoop addr (s.now + 3000) (.zeros 1024) s.now s.incoming
  unfold secondReply? secondFrom?
  change Option.map _ (reply? ((allocateExchange₁ addr nanos₁).wait (.zeros 1024) s)) = _ at hfirst
  dsimp only
  cases hnext : nextFrom? addr (s.now + 3000) s.now s.incoming with
  | none =>
    rw [hnext,Option.map_none,Option.map_eq_none_iff] at hfirst
    rw [hfirst]
    rfl
  | some first =>
    obtain ⟨data,s₁⟩ := first
    rw [hnext,Option.map_some,Option.map_eq_some_iff] at hfirst
    obtain ⟨reply,hreply,hpair⟩ := hfirst
    cases hpair
    rw [hreply,Option.map_some]
    change _ = Option.map _ (match parseTurnError401 (data.take 1024) with
      | .ok _ => _
      | _ => none)
    cases parseTurnError401 (data.take 1024) with
    | ok auth =>
      have hsecond := congrArg (Option.map Prod.fst) (reply?_recvLoop addr (w₁.socket.now + 3000) w₁.buf
        w₁.socket.now w₁.socket.incoming)
      rw [Option.map_map,Option.map_map] at hsecond
      rw [Option.map_map]
      exact Option.map_id'.symm.trans hsecond
    | err e => rfl
    | panicked => rfl

section Calls
variable (md5Hash : Bytes → Bytes) (hmacSha1 : Bytes → Bytes → Bytes)

/-- Send the request and wait, with the test of the loop as it is written. -/
def Exchange.waitReading (e : Exchange) (reading : Buffer e.cap → Outcome String Bool) (buf : Buffer e.cap)
    (s : Socket) : Outcome String (Waited e.cap) :=
  recvLoopReading e.server (s.now + e.timeout) reading buf s.now s.incoming

theorem waitReading_eq {e : Exchange} {reading : Buffer e.cap → Outcome String Bool}
    (h : ∀ buf, reading buf = .ok (e.ends buf)) (buf : Buffer e.cap) (s : Socket) :
    e.waitReading reading buf s = .ok (e.wait buf s) :=
  recvLoopReading_eq h buf s.now s.incoming

/-- Any datagram of the server ends the wait. -/
def anyDatagram {cap : ℕ} (_ : Buffer cap) : Outcome String Bool := .ok true

def stunBindingReading (stunAddr : SocketAddr) (nanos : ℕ) (s : Socket) : Outcome String SocketAddr := do
  let w ← (bindingExchange stunAddr nanos).waitReading anyDatagram (.zeros 512) s
  answerReading w "STUN binding timeout" parseStunResponse

def turnAllocateReading (turnAddr : SocketAddr) (username password : String) (nanos₁ nanos₂ : ℕ) (s : Socket) :
    Outcome String (SocketAddr × TurnState) := do
  let w₁ ← (allocateExchange₁ turnAddr nanos₁).waitReading anyDatagram (.zeros 1024) s
  let (realm,nonce) ← answerReading w₁ "TURN allocate step1 timeout" fun data =>
    (parseTurnError401 data).mapErr fun e => s!"TURN server did not return 401 with realm/nonce: {e}"
  let ts := ⟨turnAddr,realm,nonce,username,password⟩
  let w₂ ← (allocateExchange₂ md5Hash hmacSha1 ts nanos₂).waitReading anyDatagram w₁.buf w₁.socket
  let relay ← answerReading w₂ "TURN allocate step2 timeout" parseAllocateResponse
  .ok (relay,ts)

/-- The two answers to a CreatePermission are told by their type, of whatever length the datagram was. -/
def permissionAnswer {cap : ℕ} (buf : Buffer cap) : Outcome String Bool := do
  let mt ← readMsgType buf
  .ok (mt = 0x0108 ∨ mt = 0x0118)

/-- What the wait ends in is dropped. -/
def turnCreatePermissionReading (ts : TurnState) (peerIp : IpAddr) (nanos : ℕ) (s : Socket) :
    Outcome String Unit := do
  let _ ← (createPermissionExchange md5Hash hmacSha1 ts peerIp nanos).waitReading permissionAnswer (.zeros 512) s
  .ok ()

variable {md5Hash hmacSha1}

theorem permissionAnswer_eq {cap : ℕ} (hcap : 2 ≤ cap) (buf : Buffer cap) :
    permissionAnswer buf = .ok (decide (buf.msgType = 0x0108 ∨ buf.msgType = 0x0118)) := by
  rw [permissionAnswer,readMsgType_eq hcap,ok_bind]

theorem stunBindingReading_eq (stunAddr : SocketAddr) (nanos : ℕ) (s : Socket) :
    stunBindingReading stunAddr nanos s = (stunBinding stunAddr nanos s).1 := by
  have hwait := waitReading_eq (e := bindingExchange stunAddr nanos) (fun _ => rfl) (.zeros 512) s
  exact (congrArg (· >>= _) hwait).trans (answerReading_eq (fun _ => recvLoop_datagram_le) _ _)

theorem turnAllocateReading_eq (addr : SocketAddr) (user pass : String) (nanos₁ nanos₂ : ℕ) (s : Socket) :
    turnAllocateReading md5Hash hmacSha1 addr user pass nanos₁ nanos₂ s =
      (turnAllocate md5Hash hmacSha1 addr user pass nanos₁ nanos₂ s).1 := by
  rw [turnAllocate_fst]
  have hwait₁ := waitReading_eq (e := allocateExchange₁ addr nanos₁) (fun _ => rfl) (.zeros 1024) s
  refine (congrArg (· >>= _) hwait₁).trans ?_
  have hle₁ : ∀ n, ((allocateExchange₁ addr nanos₁).wait (.zeros 1024) s).ending = .datagram n → n ≤ 1024 :=
    fun _ => recvLoop_datagram_le
  rw [ok_bind,answerReading_eq hle₁]
  refine congrArg (_ >>= ·) (funext fun auth => ?_)
  let w₁ := (allocateExchange₁ addr nanos₁).wait (.zeros 1024) s
  let e₂ := allocateExchange₂ md5Hash hmacSha1 ⟨addr,auth.1,auth.2,user,pass⟩ nanos₂
  have hwait₂ := waitReading_eq (e := e₂) (fun _ => rfl) w₁.buf w₁.socket
  refine (congrArg (· >>= _) hwait₂).trans ?_
  have hle₂ : ∀ n, (e₂.wait w₁.buf w₁.socket).ending = .datagram n → n ≤ 1024 :=
    fun _ => recvLoop_datagram_le
  rw [ok_bind,answerReading_eq hle₂]

theorem turnCreatePermissionReading_eq (ts : TurnState) (peerIp : IpAddr) (nanos : ℕ) (s : Socket) :
    turnCreatePermissionReading md5Hash hmacSha1 ts peerIp nanos s =
      (turnCreatePermission md5Hash hmacSha1 ts peerIp nanos s).1 := by
  have hwait := waitReading_eq (e := createPermissionExchange md5Hash hmacSha1 ts peerIp nanos)
    (permissionAnswer_eq (by decide : 2 ≤ 512)) (.zeros 512) s
  exact congrArg (· >>= _) hwait

theorem stunBindingReading_ne_panicked (stunAddr : SocketAddr) (nanos : ℕ) (s : Socket) :
    stunBindingReading stunAddr nanos s ≠ .panicked := by
  rw [stunBindingReading_eq]
  change answer _ _ _ ≠ _
  cases hreply : reply? ((bindingExchange stunAddr nanos).wait (.zeros 512) s) with
  | none =>
    obtain ⟨e,he⟩ := answer_of_no_reply hreply "STUN binding timeout" parseStunResponse
    rw [he]
    exact nofun
  | some data =>
    rw [answer_of_reply hreply]
    intro hpanicked
    have hattempt := parseStunResponse_attempt data
    rw [hpanicked] at hattempt
    cases hattempt

/-- `turn_allocate` reads the type of the second answer before it knows that there are two bytes. -/
theorem turnAllocateReading_panicked_iff {addr : SocketAddr} {user pass : String} {nanos₁ nanos₂ : ℕ} {s : Socket} :
    turnAllocateReading md5Hash hmacSha1 addr user pass nanos₁ nanos₂ s = .panicked ↔
      ∃ resp, secondFrom? addr s = some resp ∧ resp.length < 2 := by
  have hreply := secondReply?_eq md5Hash hmacSha1 addr user pass nanos₁ nanos₂ s
  rw [turnAllocateReading_eq]
  cases hsecond : secondFrom? addr s with
  | none =>
    rw [hsecond] at hreply
    obtain ⟨e,he⟩ := turnAllocate_of_no_reply hreply
    rw [he]
    exact iff_of_false nofun nofun
  | some resp =>
    rw [hsecond] at hreply
    obtain ⟨ts,hts⟩ := turnAllocate_of_reply hreply
    rw [hts,bind_eq_panicked]
    have hlength : (resp.take 1024).length < 2 ↔ resp.length < 2 := by
      rw [List.length_take]
      omega
    by_cases hshort : resp.length < 2
    · exact iff_of_true (.inl (parseAllocateResponse_short (hlength.mpr hshort))) ⟨resp,rfl,hshort⟩
    · have htwo : 2 ≤ (resp.take 1024).length := Nat.not_lt.mp (hshort ∘ hlength.mp)
      rcases cases_of_attempt (parseAllocateResponse_attempt htwo) with ⟨relay,hx,_⟩ | ⟨e,hx,_⟩
      all_goals
        rw [hx]
        refine iff_of_false (by simp) ?_
        rintro ⟨_,⟨⟩,h⟩
        exact hshort h

theorem turnCreatePermissionReading_ne_panicked (ts : TurnState) (peerIp : IpAddr) (nanos : ℕ) (s : Socket) :
    turnCreatePermissionReading md5Hash hmacSha1 ts peerIp nanos s ≠ .panicked := by
  rw [turnCreatePermissionReading_eq]
  exact nofun

end Calls

namespace Call

section Outcomes
variable (md5Hash : Bytes → Bytes) (hmacSha1 : Bytes → Bytes → Bytes)

def outcome (s : Socket) : Call → Outcome String Unit
  | .stunBinding stunAddr nanos => stunBindingReading stunAddr nanos s >>= fun _ => .ok ()
  | .turnAllocate turnAddr username password nanos₁ nanos₂ =>
    turnAllocateReading md5Hash hmacSha1 turnAddr username password nanos₁ nanos₂ s >>= fun _ => .ok ()
  | .turnCreatePermission ts peerIp nanos => turnCreatePermissionReading md5Hash hmacSha1 ts peerIp nanos s

/-- The datagram that comes in for the authenticated request of a call. -/
def secondAnswer? (s : Socket) : Call → Option Bytes
  | .turnAllocate turnAddr _ _ _ _ => secondFrom? turnAddr s
  | _ => none

/-- A call ends in `Ok` or `Err`, whatever its server sends, unless the second answer of `turn_allocate`
has less than two bytes. -/
theorem returns_iff (c : Call) (s : Socket) :
    c.outcome md5Hash hmacSha1 s ≠ .panicked ↔ ∀ resp, c.secondAnswer? s = some resp → 2 ≤ resp.length := by
  cases c with
  | stunBinding stunAddr nanos =>
    refine iff_of_true ?_ nofun
    rw [outcome,Ne,bind_eq_panicked]
    rintro (h | ⟨_,_,h⟩)
    · exact stunBindingReading_ne_panicked stunAddr nanos s h
    · cases h
  | turnAllocate turnAddr username password nanos₁ nanos₂ =>
    rw [outcome,secondAnswer?,Ne,bind_eq_panicked,turnAllocateReading_panicked_iff]
    constructor
    · intro h resp hresp
      by_contra hshort
      exact h (.inl ⟨resp,hresp,Nat.not_le.mp hshort⟩)
    · rintro h (⟨resp,hresp,hshort⟩ | ⟨_,_,hend⟩)
      · exact Nat.not_le.mpr hshort (h resp hresp)
      · cases hend
  | turnCreatePermission ts peerIp nanos =>
    exact iff_of_true (turnCreatePermissionReading_ne_panicked ts peerIp nanos s) nofun

end Outcomes

/-- The 401 answer, and then a datagram of no bytes. -/
def emptySecondAnswer : Socket :=
  ⟨0,[⟨10,.ok (sharedServer,unauthorizedResponse)⟩,⟨20,.ok (sharedServer,[])⟩]⟩

theorem emptySecondAnswer_from : secondFrom? sharedServer emptySecondAnswer = some [] := by
  decide +kernel

/-- An empty datagram as the second answer ends the agent, whatever the credentials are hashed to. -/
theorem outcome_emptySecondAnswer (md5Hash : Bytes → Bytes) (hmacSha1 : Bytes → Bytes → Bytes) :
    (turnAllocate sharedServer "kvm" "kvm" 6 7).outcome md5Hash hmacSha1 emptySecondAnswer = .panicked := by
  rw [outcome,bind_eq_panicked]
  exact .inl (turnAllocateReading_panicked_iff.mpr ⟨[],emptySecondAnswer_from,by decide⟩)

theorem empty_answer_panics :
    ¬ ∀ md5Hash hmacSha1 s (c : Call), c.outcome md5Hash hmacSha1 s ≠ .panicked := by
  intro h
  exact h (fun _ => []) (fun _ _ => []) _ _ (outcome_emptySecondAnswer _ _)

end Call

end Turn
end AnyKvm
