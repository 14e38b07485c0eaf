import AnyKvm.StunClient

/-! Whether an answer belongs to the request that is waited on.
No wait looks at a transaction ID, so each takes the first answer that comes from its server, also
one to an earlier request. -/
namespace AnyKvm
namespace Turn

open Outcome Bytes

section Loop
variable {cap : ℕ} (addr : SocketAddr) (deadline : ℕ) (ends : Buffer cap → Bool) (txn : Bytes)

def Buffer.storeAll (buf : Buffer cap) : List Arrival → Buffer cap
  | [] => buf
  | a :: rest => match a.packet with
    | .error _ => storeAll buf rest
    | .ok (_,data) => storeAll (buf.store data) rest

/-- A datagram that is an answer as far as the wait can tell, after the arrivals before it. -/
def IsAnswer (buf : Buffer cap) (before : List Arrival) (a : Arrival) (data : Bytes) : Prop :=
  a.packet = .ok (addr,data) ∧ ends ((buf.storeAll before).store data) = true

/-- Arrivals that a wait gets to see one after the other. -/
def InTime (as : List Arrival) : Prop := ∀ a ∈ as, a.time ≤ deadline ∧ ∃ packet, a.packet = .ok packet

/-- An answer with another transaction ID comes in only after one with the ID of the request. -/
def OwnFirst (buf : Buffer cap) (incoming : List Arrival) : Prop :=
  ∀ before a after data, incoming = before ++ a :: after → InTime deadline (before ++ [a]) →
    IsAnswer addr ends buf before a data → txnId data ≠ txn →
    ∃ before' a' after' data', before = before' ++ a' :: after' ∧
      IsAnswer addr ends buf before' a' data' ∧ txnId data' = txn

/-- The answer that ended a wait, if one did, has the ID of the request. -/
def Matched (w : Waited cap) : Prop :=
  ∀ n, w.ending = .datagram n → txnId (w.buf.received n) = txn

variable {addr deadline ends txn}

theorem received_store (buf : Buffer cap) (data : Bytes) :
    (buf.store data).received (min data.length cap) = data.take cap := by
  simp [Buffer.received,Buffer.store,Nat.min_comm]

theorem txnId_take (hcap : 20 ≤ cap) (data : Bytes) : txnId (data.take cap) = txnId data := by
  unfold txnId
  rw [List.drop_take,List.take_take,Nat.min_eq_left (by omega)]

theorem storeAll_cons {buf : Buffer cap} {a : Arrival} (rest : List Arrival) {source : SocketAddr}
    {data : Bytes} (ha : a.packet = .ok (source,data)) :
    buf.storeAll (a :: rest) = (buf.store data).storeAll rest := by
  rw [Buffer.storeAll,ha]

theorem ownFirst_nil (buf : Buffer cap) : OwnFirst addr deadline ends txn buf [] := by
  intro before a after data h
  simp at h

theorem ownFirst_of_not_inTime {buf : Buffer cap} {a : Arrival} (rest : List Arrival)
    (h : ¬ InTime deadline [a]) : OwnFirst addr deadline ends txn buf (a :: rest) := by
  intro before b after data heq hin
  refine absurd ?_ h
  cases before with
  | nil =>
    cases heq
    exact hin
  | cons c before =>
    cases heq
    intro d hd
    rw [List.mem_singleton.mp hd]
    exact hin a List.mem_cons_self

theorem ownFirst_answer {buf : Buffer cap} {a : Arrival} {data : Bytes} (rest : List Arrival)
    (hin : InTime deadline [a]) (ha : IsAnswer addr ends buf [] a data) :
    OwnFirst addr deadline ends txn buf (a :: rest) ↔ txnId data = txn := by
  constructor
  · intro h
    by_contra hne
    obtain ⟨before,b,after,_,heq,_⟩ := h [] a rest data rfl hin ha hne
    simp at heq
  · intro htxn before b after data' heq _ hb hne
    cases before with
    | nil =>
      cases heq
      have hdata := ha.1.symm.trans hb.1
      cases hdata
      exact absurd htxn hne
    | cons c before =>
      cases heq
      exact ⟨[],a,before,data,rfl,ha,htxn⟩

theorem ownFirst_skip {buf : Buffer cap} {a : Arrival} {source : SocketAddr} {data : Bytes}
    (rest : List Arrival) (htime : a.time ≤ deadline) (ha : a.packet = .ok (source,data))
    (hno : ¬ (source = addr ∧ ends (buf.store data) = true)) :
    OwnFirst addr deadline ends txn buf (a :: rest) ↔
      OwnFirst addr deadline ends txn (buf.store data) rest := by
  have hcons : ∀ before b data', IsAnswer addr ends buf (a :: before) b data' ↔
      IsAnswer addr ends (buf.store data) before b data' := by
    intro before b data'
    unfold IsAnswer
    rw [storeAll_cons before ha]
  have hfirst : ∀ data', ¬ IsAnswer addr ends buf [] a data' := by
    rintro data' ⟨hpacket,hends⟩
    rw [ha] at hpacket
    cases hpacket
    exact hno ⟨rfl,hends⟩
  have hin : ∀ as, InTime deadline (a :: as) ↔ InTime deadline as := by
    intro as
    unfold InTime
    rw [List.forall_mem_cons]
    exact and_iff_right ⟨htime,_,ha⟩
  constructor
  · intro h before b after data' heq hb hans hne
    obtain ⟨before',b',after',data'',hsplit,hans',htxn⟩ := h (a :: before) b after data'
      (by rw [heq]; rfl) ((hin _).mpr hb) ((hcons _ _ _).mpr hans) hne
    cases before' with
    | nil =>
      cases hsplit
      exact absurd hans' (hfirst _)
    | cons c before' =>
      cases hsplit
      exact ⟨before',b',after',data'',rfl,(hcons _ _ _).mp hans',htxn⟩
  · intro h before b after data' heq hb hans hne
    cases before with
    | nil =>
      cases heq
      exact absurd hans (hfirst _)
    | cons c before =>
      cases heq
      obtain ⟨before',b',after',data'',rfl,hans',htxn⟩ :=
        h before b after data' rfl ((hin _).mp hb) ((hcons _ _ _).mp hans) hne
      exact ⟨a :: before',b',after',data'',rfl,(hcons _ _ _).mpr hans',htxn⟩

/-- A wait takes an answer to its own request exactly if that is the first answer to come in. -/
theorem recvLoop_matched_iff (hcap : 20 ≤ cap) (buf : Buffer cap) (now : ℕ) (incoming : List Arrival) :
    Matched txn (recvLoop addr deadline ends buf now incoming) ↔
      OwnFirst addr deadline ends txn buf incoming := by
  induction incoming generalizing buf now with
  | nil =>
    refine iff_of_true ?_ (ownFirst_nil buf)
    rintro n ⟨⟩
  | cons a rest ih =>
    rw [recvLoop]
    by_cases hlate : deadline < a.time
    · rw [if_pos hlate]
      refine iff_of_true ?_ (ownFirst_of_not_inTime rest fun hin => ?_)
      · rintro n ⟨⟩
      · exact absurd (hin a (List.mem_singleton.mpr rfl)).1 (Nat.not_le.mpr hlate)
    rw [if_neg hlate]
    have htime := Nat.not_lt.mp hlate
    cases hpacket : a.packet with
    | error e =>
      refine iff_of_true ?_ (ownFirst_of_not_inTime rest fun hin => ?_)
      · rintro n ⟨⟩
      · obtain ⟨packet,hok⟩ := (hin a (List.mem_singleton.mpr rfl)).2
        rw [hpacket] at hok
        cases hok
    | ok packet =>
      obtain ⟨source,data⟩ := packet
      simp only
      by_cases hans : source = addr ∧ ends (buf.store data) = true
      · rw [if_pos hans]
        have hin : InTime deadline [a] := by
          intro b hb
          rw [List.mem_singleton.mp hb]
          exact ⟨htime,_,hpacket⟩
        rw [ownFirst_answer rest hin ⟨by rw [hpacket,hans.1],hans.2⟩]
        simp only [Matched,Ending.datagram.injEq,forall_eq',received_store,txnId_take hcap]
      · rw [if_neg hans,ih,ownFirst_skip rest htime hpacket hans]

end Loop

/-- An exchange at its start: the buffer that it receives into, and the socket. -/
structure Started where
  exchange : Exchange
  buf : Buffer exchange.cap
  socket : Socket

/-- The exchange acts on no answer but one to its own request. -/
def Started.Matched (w : Started) : Prop :=
  Turn.Matched (txnId w.exchange.request) (w.exchange.wait w.buf w.socket)

def Started.OwnFirst (w : Started) : Prop :=
  Turn.OwnFirst w.exchange.server (w.socket.now + w.exchange.timeout) w.exchange.ends
    (txnId w.exchange.request) w.buf w.socket.incoming

/-- The calls of `webrtc::run` that wait for an answer, each with the times of its requests. -/
inductive Call
  | stunBinding (stunAddr : SocketAddr) (nanos : ℕ)
  | turnAllocate (turnAddr : SocketAddr) (username password : String) (nanos₁ nanos₂ : ℕ)
  | turnCreatePermission (ts : TurnState) (peerIp : IpAddr) (nanos : ℕ)

section Calls
variable (md5Hash : Bytes → Bytes) (hmacSha1 : Bytes → Bytes → Bytes)

def Call.perform (s : Socket) : Call → Socket
  | .stunBinding stunAddr nanos => (Turn.stunBinding stunAddr nanos s).2
  | .turnAllocate turnAddr username password nanos₁ nanos₂ =>
    (Turn.turnAllocate md5Hash hmacSha1 turnAddr username password nanos₁ nanos₂ s).2
  | .turnCreatePermission ts peerIp nanos =>
    (Turn.turnCreatePermission md5Hash hmacSha1 ts peerIp nanos s).2

/-- The exchanges of a call; `turn_allocate` comes to its second step by an answer to the first that
holds a realm and a nonce. -/
def Call.exchanges (s : Socket) : Call → List Started
  | .stunBinding stunAddr nanos => [⟨bindingExchange stunAddr nanos,.zeros 512,s⟩]
  | .turnAllocate turnAddr username password nanos₁ nanos₂ =>
    let w₁ := (allocateExchange₁ turnAddr nanos₁).wait (.zeros 1024) s
    ⟨allocateExchange₁ turnAddr nanos₁,.zeros 1024,s⟩ ::
      match answer w₁ "" parseTurnError401 with
      | .ok (realm,nonce) =>
        [⟨allocateExchange₂ md5Hash hmacSha1 ⟨turnAddr,realm,nonce,username,password⟩ nanos₂,
          w₁.buf,w₁.socket⟩]
      | _ => []
  | .turnCreatePermission ts peerIp nanos =>
    [⟨createPermissionExchange md5Hash hmacSha1 ts peerIp nanos,.zeros 512,s⟩]

/-- All exchanges of calls that are made one after the other. -/
def exchanges (s : Socket) : List Call → List Started
  | [] => []
  | call :: calls =>
    call.exchanges md5Hash hmacSha1 s ++ exchanges (call.perform md5Hash hmacSha1 s) calls

variable {md5Hash hmacSha1}

theorem cap_of_mem_exchanges {s : Socket} {calls : List Call} {w : Started}
    (h : w ∈ exchanges md5Hash hmacSha1 s calls) : 20 ≤ w.exchange.cap := by
  induction calls generalizing s with
  | nil => cases h
  | cons call calls ih =>
    rcases List.mem_append.mp h with h | h
    · cases call with
      | stunBinding stunAddr nanos =>
        cases List.mem_singleton.mp h
        exact (by decide : 20 ≤ 512)
      | turnAllocate turnAddr username password nanos₁ nanos₂ =>
        rcases List.mem_cons.mp h with rfl | h
        · exact (by decide : 20 ≤ 1024)
        · split at h
          · cases List.mem_singleton.mp h
            exact (by decide : 20 ≤ 1024)
          · cases h
      | turnCreatePermission ts peerIp nanos =>
        cases List.mem_singleton.mp h
        exact (by decide : 20 ≤ 512)
    · exact ih h

/-- In calls that are made one after the other on one socket, whatever comes in, all exchanges act on
answers to their own requests exactly if each time such an answer comes in first. -/
theorem responses_matched_iff (calls : List Call) (s : Socket) :
    (∀ w ∈ exchanges md5Hash hmacSha1 s calls, w.Matched) ↔
      ∀ w ∈ exchanges md5Hash hmacSha1 s calls, w.OwnFirst :=
  forall₂_congr fun w hw => recvLoop_matched_iff (cap_of_mem_exchanges hw) w.buf w.socket.now _

end Calls

/-- One address serves both as STUN and as TURN server. -/
def sharedServer : SocketAddr := ⟨.v4 0x0A000001,3478⟩

def bindingResponse : Bytes :=
  stunHeader 0x0101 12 (txnId (bindingRequest 5)) ++
    appendAttr [] 0x0020 [0,1,0x11,0x2B,0x2B,0x12,0xA4,0x40]

def unauthorizedResponse : Bytes :=
  stunHeader 0x0113 16 (genTxnId 6) ++ appendAttr (appendAttr [] 0x0014 [0x72]) 0x0015 [0x6E]

/-- The Binding answer is late by half a second. -/
def lateBindingResponse : Socket :=
  ⟨0,[⟨3500,.ok (sharedServer,bindingResponse)⟩,⟨3600,.ok (sharedServer,unauthorizedResponse)⟩]⟩

/-- The late answer to the Binding request ends the first wait of `turn_allocate`, which fails on it. -/
theorem late_response_fails_allocate : ∃ calls s, ∀ md5Hash hmacSha1,
    (turnAllocate md5Hash hmacSha1 sharedServer "kvm" "kvm" 6 7 (stunBinding sharedServer 5 s).2).1 =
        .err "TURN server did not return 401 with realm/nonce: missing REALM or NONCE in 401" ∧
      ¬ ∀ w ∈ exchanges md5Hash hmacSha1 s calls, w.Matched := by
  refine ⟨[.stunBinding sharedServer 5,.turnAllocate sharedServer "kvm" "kvm" 6 7],lateBindingResponse,?_⟩
  intro md5Hash hmacSha1
  refine ⟨rfl,fun h => ?_⟩
  have hallocate := h ⟨allocateExchange₁ sharedServer 6,.zeros 1024,(stunBinding sharedServer 5
    lateBindingResponse).2⟩ (List.mem_cons_of_mem _ List.mem_cons_self) 32 (by decide +kernel)
  revert hallocate
  decide +kernel

end Turn
end AnyKvm
