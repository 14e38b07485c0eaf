import AnyKvm.StunAnswers
import AnyKvm.LocalAddresses

/-! `webrtc.rs`: gathering of candidates, from the bound socket to the offer.
Three results of str0m are passed on with `?` on the way. The session comes to its offer exactly if
str0m accepts every address that the system and the servers give, and no answer makes the agent
panic. -/
namespace AnyKvm
namespace Gathering

open Turn Ice Outcome

/-- An error that `run` returns: its context and its cause. -/
structure RunError where
  context : String
  cause : IceError
  deriving DecidableEq, Repr

structure IceConfig where
  stunServers : List (List Char)
  turnUrl : Option (List Char)
  turnUsername : Option String
  turnPassword : Option String

/-- What the session finds: the interfaces, the resolver, the clock, the port of its socket and what
comes in there. -/
structure Surroundings where
  interfaces : Interfaces
  lookupHost : List Char → Except String (List SocketAddr)
  clock : ℕ → ℕ
  port : UInt16
  socket : Socket

/-- What `build_full_offer` starts from. -/
structure Gathered where
  candidates : List Candidate
  relayAddr : Option SocketAddr
  turnState : Option TurnState
  deriving DecidableEq

def localhost : IpAddr := .v4 0x7F000001

/-- The address of a server: the first one of IPv4, at port 3478 if the URL has none. -/
def serverAddr (env : Surroundings) (scheme : List Char) (kind : String) (url : List Char) :
    Outcome String SocketAddr :=
  let addrStr := (scheme.isPrefixOf? url).getD url
  let hostPort := if ':' ∈ addrStr then addrStr else addrStr ++ ":3478".toList
  match env.lookupHost hostPort with
  | .error e => .err s!"resolve {kind} server: {e}"
  | .ok addrs => match addrs.find? fun a => !a.ip.isV6 with
    | some addr => .ok addr
    | none => .err s!"{kind} server has no IPv4 address"

def stunAddr (env : Surroundings) (url : List Char) : Outcome String SocketAddr :=
  serverAddr env "stun:".toList "STUN" url

def turnAddr (env : Surroundings) (url : List Char) : Outcome String SocketAddr :=
  serverAddr env "turn:".toList "TURN" url

/-- `rtc.add_local_candidate(Candidate::host(..).context("host candidate")?)`. -/
def registerHost (port : UInt16) (cands : List Candidate) (ip : IpAddr) :
    Outcome RunError (List Candidate) := do
  let cand ← (Candidate.host ⟨ip,port⟩).mapErr (RunError.mk "host candidate")
  addLocalCandidate cands cand

/-- The host candidates; 127.0.0.1 stands in if there are no addresses. -/
def hostCandidates (port : UInt16) (localIps : List IpAddr) : Outcome RunError (List Candidate) :=
  if localIps.isEmpty = true then registerHost port [] (localIps.head?.getD localhost)
  else localIps.foldlM (registerHost port) []

/-- The loop over the STUN servers: the first address ends it, errors do not. -/
def gatherSrflx (env : Surroundings) (localAddr : SocketAddr) (cands : List Candidate) :
    List (List Char) → Socket → Outcome RunError (List Candidate × Socket)
  | [],s => .ok (cands,s)
  | url :: urls,s => match stunAddr env url with
    | .ok addr => match stunBinding addr (env.clock s.now) s with
      | (.ok srflxAddr,s) => do
        let cand ← (Candidate.serverReflexive srflxAddr localAddr).mapErr (RunError.mk "srflx candidate")
        .ok (← addLocalCandidate cands cand,s)
      | (.err _,s) => gatherSrflx env localAddr cands urls s
      | (.panicked,_) => .panicked
    | .err _ => gatherSrflx env localAddr cands urls s
    | .panicked => .panicked

section Credentials
variable (md5Hash : Bytes → Bytes) (hmacSha1 : Bytes → Bytes → Bytes)

/-- The first step of `turn_allocate`. -/
def allocateWait₁ (env : Surroundings) (addr : SocketAddr) (s : Socket) : Waited 1024 :=
  (allocateExchange₁ addr (env.clock s.now)).wait (.zeros 1024) s

/-- `turn_allocate` once the server is known; the clock is read before each of the two requests. -/
def allocate (env : Surroundings) (addr : SocketAddr) (user pass : String) (s : Socket) :
    Outcome String (SocketAddr × TurnState) :=
  (turnAllocate md5Hash hmacSha1 addr user pass (env.clock s.now)
    (env.clock (allocateWait₁ env addr s).socket.now) s).1

/-- The second step of `turn_allocate`. -/
def allocateWait₂ (env : Surroundings) (ts : TurnState) (s : Socket) : Waited 1024 :=
  let w := allocateWait₁ env ts.turnAddr s
  (allocateExchange₂ md5Hash hmacSha1 ts (env.clock w.socket.now)).wait w.buf w.socket

def gatherRelay (env : Surroundings) (cfg : IceConfig) (cands : List Candidate) (s : Socket) :
    Outcome RunError Gathered :=
  match cfg.turnUrl,cfg.turnUsername,cfg.turnPassword with
  | some url,some user,some pass =>
    match turnAddr env url >>= fun addr => allocate md5Hash hmacSha1 env addr user pass s with
    | .ok (raddr,state) => do
      let cand ← (Candidate.relayed raddr).mapErr (RunError.mk "relay candidate")
      .ok ⟨← addLocalCandidate cands cand,some raddr,some state⟩
    | .err _ => .ok ⟨cands,none,none⟩
    | .panicked => .panicked
  | _,_,_ => .ok ⟨cands,none,none⟩

/-- The part of `run` before `build_full_offer`. -/
def gather (env : Surroundings) (cfg : IceConfig) : Outcome RunError Gathered := do
  let localIps := getLocalIps env.interfaces
  let localAddr := ⟨localIps.head?.getD localhost,env.port⟩
  let cands ← hostCandidates env.port localIps
  let (cands,s) ← gatherSrflx env localAddr cands cfg.stunServers env.socket
  gatherRelay md5Hash hmacSha1 env cfg cands s

def reply? {cap : ℕ} (w : Waited cap) : Option Bytes :=
  match w.ending with
  | .datagram n => some (w.buf.received n)
  | _ => none

def bindingWait (env : Surroundings) (addr : SocketAddr) (s : Socket) : Waited 512 :=
  (bindingExchange addr (env.clock s.now)).wait (.zeros 512) s

/-- The first address in the answers of the STUN servers, and the socket after that. -/
def srflx? (env : Surroundings) : List (List Char) → Socket → Option SocketAddr × Socket
  | [],s => (none,s)
  | url :: urls,s => match stunAddr env url with
    | .ok addr =>
      let w := bindingWait env addr s
      match (reply? w).bind mappedAddr? with
      | some srflxAddr => (some srflxAddr,w.socket)
      | none => srflx? env urls w.socket
    | _ => srflx? env urls s

def allocateReply? (env : Surroundings) (addr : SocketAddr) (user pass : String) (s : Socket) :
    Option Bytes :=
  match (reply? (allocateWait₁ env addr s)).map parseTurnError401 with
  | some (.ok (realm,nonce)) => reply? (allocateWait₂ md5Hash hmacSha1 env ⟨addr,realm,nonce,user,pass⟩ s)
  | _ => none

/-- The answer of the TURN server in a session. -/
def turnReply? (env : Surroundings) (cfg : IceConfig) (s : Socket) : Option Bytes :=
  match cfg.turnUrl,cfg.turnUsername,cfg.turnPassword with
  | some url,some user,some pass => match turnAddr env url with
    | .ok addr => allocateReply? md5Hash hmacSha1 env addr user pass s
    | _ => none
  | _,_,_ => none

/-- The session comes to its offer with all host candidates that can be used, and the local addresses
are as they should be. -/
structure Gathers (env : Surroundings) (cfg : IceConfig) : Prop where
  nodup : (getLocalIps env.interfaces).Nodup
  accepted : ∀ ip ∈ getLocalIps env.interfaces,ip.isLoopback = false ∧ ip.isLinkLocal = false ∧
    ip.isUnspecified = false ∧ ∃ cand, Candidate.host ⟨ip,env.port⟩ = .ok cand
  offered : ∃ g, gather md5Hash hmacSha1 env cfg = .ok g ∧
    ∀ ip ∈ localAddresses env.interfaces,isValidIp ip = true → Registered g.candidates ⟨ip,env.port⟩

/-- Nothing that the system or a server says is refused by str0m or makes the agent panic. -/
structure Harmless (env : Surroundings) (cfg : IceConfig) : Prop where
  addresses : ∀ ip ∈ localAddresses env.interfaces,isValidIp ip = true
  few : (localAddresses env.interfaces).card ≤ 32768
  srflx : ∀ addr, (srflx? env cfg.stunServers env.socket).1 = some addr → isValidIp addr.ip = true
  relay : ∀ resp,
    turnReply? md5Hash hmacSha1 env cfg (srflx? env cfg.stunServers env.socket).2 = some resp →
    2 ≤ resp.length ∧ ∀ addr, relayAddr? resp = some addr → isValidIp addr.ip = true

end Credentials

theorem answer_of_reply {α : Type} {cap : ℕ} {w : Waited cap} {data : Bytes} (h : reply? w = some data)
    (timeout : String) (parse : Bytes → Outcome String α) : answer w timeout parse = parse data := by
  unfold reply? at h
  unfold answer
  cases hending : w.ending with
  | datagram n =>
    rw [hending] at h
    exact congrArg parse (Option.some.inj h)
  | failed e =>
    rw [hending] at h
    cases h
  | timeout =>
    rw [hending] at h
    cases h

theorem answer_of_no_reply {α : Type} {cap : ℕ} {w : Waited cap} (h : reply? w = none)
    (timeout : String) (parse : Bytes → Outcome String α) : ∃ e, answer w timeout parse = .err e := by
  unfold reply? at h
  unfold answer
  cases hending : w.ending with
  | datagram n =>
    rw [hending] at h
    cases h
  | failed e => exact ⟨e,rfl⟩
  | timeout => exact ⟨timeout,rfl⟩

theorem serverAddr_ne_panicked (env : Surroundings) (scheme : List Char) (kind : String)
    (url : List Char) : serverAddr env scheme kind url ≠ .panicked := by
  unfold serverAddr
  simp only
  split
  · simp
  · split <;> simp

structure HostsOf (port : UInt16) (ips : List IpAddr) (cands : List Candidate) : Prop where
  addrs : cands.map (·.addr) = ips.map fun ip => ⟨ip,port⟩
  hosts : ∀ v ∈ cands, ∃ pref, v = hostAt v.addr pref ∧ pref < 2 ^ 16

theorem HostsOf.length {port : UInt16} {ips : List IpAddr} {cands : List Candidate}
    (h : HostsOf port ips cands) : cands.length = ips.length := by
  simpa using congrArg List.length h.addrs

theorem HostsOf.prioritised {port : UInt16} {ips : List IpAddr} {cands : List Candidate}
    (h : HostsOf port ips cands) : Prioritised cands := by
  intro v hv
  obtain ⟨pref,hv',hpref⟩ := h.hosts v hv
  exact ⟨pref,by rw [hv']; rfl,hpref⟩

theorem HostsOf.kind {port : UInt16} {ips : List IpAddr} {cands : List Candidate}
    (h : HostsOf port ips cands) {kind : CandidateKind} (hkind : kind ≠ .host) :
    kind ∉ cands.map (·.kind) := by
  intro hmem
  obtain ⟨v,hv,rfl⟩ := List.mem_map.mp hmem
  obtain ⟨pref,hv',-⟩ := h.hosts v hv
  rw [hv'] at hkind
  exact hkind rfl

theorem HostsOf.registered {port : UInt16} {ips : List IpAddr} {cands : List Candidate}
    (h : HostsOf port ips cands) {ip : IpAddr} (hip : ip ∈ ips) : Registered cands ⟨ip,port⟩ := by
  have haddr : (⟨ip,port⟩ : SocketAddr) ∈ cands.map (·.addr) := by
    rw [h.addrs]
    exact List.mem_map_of_mem hip
  obtain ⟨v,hv,hva⟩ := List.mem_map.mp haddr
  obtain ⟨pref,hv',-⟩ := h.hosts v hv
  rw [hva] at hv'
  exact ⟨v,hv,by rw [hv']; exact ⟨rfl,rfl,rfl,rfl⟩⟩

theorem hostsOf_nil (port : UInt16) : HostsOf port [] [] := ⟨rfl,fun _ hv => nomatch hv⟩

theorem registerHost_eq {port : UInt16} {ips : List IpAddr} {cands : List Candidate} {ip : IpAddr}
    (h : HostsOf port ips cands) (hips : ∀ a ∈ ips, a.isV6 = false) (hip : ip.isV6 = false)
    (hnew : ip ∉ ips) : registerHost port cands ip =
      if isValidIp ip = false then .err ⟨"host candidate",.invalidIp ip⟩
      else if 65534 < ips.length * 2 then .panicked
      else .ok (cands ++ [hostAt ⟨ip,port⟩ (65534 - ips.length * 2)]) := by
  unfold registerHost Candidate.host
  cases hvalid : isValidIp ip with
  | false =>
    rw [Candidate.checked_of_invalid hvalid]
    rfl
  | true =>
    have hhosts : ∀ v ∈ cands, v.kind = .host ∧ v.addr.ip.isV6 = false ∧ v.addr ≠ ⟨ip,port⟩ := by
      intro v hv
      obtain ⟨pref,hv',-⟩ := h.hosts v hv
      have haddr : v.addr ∈ ips.map fun ip => (⟨ip,port⟩ : SocketAddr) :=
        h.addrs ▸ List.mem_map_of_mem hv
      obtain ⟨a,ha,hav⟩ := List.mem_map.mp haddr
      refine ⟨by rw [hv']; rfl,by rw [← hav]; exact hips a ha,?_⟩
      intro heq
      rw [← hav] at heq
      exact hnew ((SocketAddr.mk.inj heq).1 ▸ ha)
    rw [Candidate.checked_of_valid hvalid,if_neg (Bool.noConfusion : ¬ true = false),← h.length]
    exact addLocalCandidate_host hip hhosts

theorem HostsOf.snoc {port : UInt16} {ips : List IpAddr} {cands : List Candidate}
    (h : HostsOf port ips cands) (ip : IpAddr) {pref : ℕ} (hpref : pref < 2 ^ 16) :
    HostsOf port (ips ++ [ip]) (cands ++ [hostAt ⟨ip,port⟩ pref]) where
  addrs := by
    rw [List.map_append,List.map_append,h.addrs]
    rfl
  hosts := by
    intro v hv
    rcases List.mem_append.mp hv with hv | hv
    · exact h.hosts v hv
    · rw [List.mem_singleton.mp hv]
      exact ⟨pref,rfl,hpref⟩

/-- The whole loop: it comes to its end exactly if str0m accepts every address and has a preference
left for it. -/
theorem registerHosts_iff {port : UInt16} {ips rest : List IpAddr} {cands : List Candidate}
    (h : HostsOf port ips cands) (hv4 : ∀ a ∈ ips ++ rest, a.isV6 = false) (hnodup : (ips ++ rest).Nodup)
    (hfew : ips.length ≤ 32768) :
    ((∃ cands', rest.foldlM (registerHost port) cands = .ok cands') ↔
      (∀ ip ∈ rest, isValidIp ip = true) ∧ (ips ++ rest).length ≤ 32768) ∧
    ∀ cands', rest.foldlM (registerHost port) cands = .ok cands' → HostsOf port (ips ++ rest) cands' := by
  induction rest generalizing ips cands with
  | nil =>
    rw [List.append_nil]
    refine ⟨⟨fun _ => ⟨?_,hfew⟩,fun _ => ⟨cands,rfl⟩⟩,?_⟩
    · intro ip hip
      cases hip
    intro cands' h'
    rw [← Outcome.ok.inj h']
    exact h
  | cons ip rest ih =>
    have hnew : ip ∉ ips := fun hmem =>
      (List.nodup_append.mp hnodup).2.2 ip hmem ip (List.mem_cons_self ..) rfl
    have hstep := registerHost_eq h (fun a ha => hv4 a (List.mem_append_left _ ha))
      (hv4 ip (List.mem_append_right _ (List.mem_cons_self ..))) hnew
    have hassoc : ips ++ ip :: rest = (ips ++ [ip]) ++ rest := (List.append_assoc ips [ip] rest).symm
    rw [List.foldlM_cons,hstep]
    cases hvalid : isValidIp ip with
    | false =>
      rw [if_pos rfl]
      refine ⟨⟨?_,?_⟩,?_⟩
      · rintro ⟨cands',h'⟩
        cases h'
      · rintro ⟨hall,-⟩
        rw [hall ip (List.mem_cons_self ..)] at hvalid
        cases hvalid
      · intro cands' h'
        cases h'
    | true =>
      rw [if_neg (Bool.noConfusion : ¬ true = false)]
      by_cases hfull : 65534 < ips.length * 2
      · rw [if_pos hfull]
        refine ⟨⟨?_,?_⟩,?_⟩
        · rintro ⟨cands',h'⟩
          cases h'
        · rintro ⟨-,hlen⟩
          rw [List.length_append,List.length_cons] at hlen
          omega
        · intro cands' h'
          cases h'
      · rw [if_neg hfull,ok_bind,hassoc]
        rw [hassoc] at hv4 hnodup
        have ih' := ih (h.snoc ip (by omega : 65534 - ips.length * 2 < 2 ^ 16)) hv4 hnodup
          (by rw [List.length_append,List.length_singleton]; omega)
        refine ⟨ih'.1.trans ?_,ih'.2⟩
        rw [List.forall_mem_cons]
        simp [hvalid]

/-- `rtc.add_local_candidate(Candidate::..(..).context(..)?)`, for the candidates of a server. -/
def addChecked (context : String) (cands : List Candidate) (kind : CandidateKind)
    (addr base : SocketAddr) : Outcome RunError (List Candidate) := do
  let cand ← (Candidate.checked kind addr base).mapErr (RunError.mk context)
  addLocalCandidate cands cand

theorem addChecked_of_invalid {context : String} {cands : List Candidate} {kind : CandidateKind}
    {addr base : SocketAddr} (h : isValidIp addr.ip = false) :
    addChecked context cands kind addr base = .err ⟨context,.invalidIp addr.ip⟩ := by
  rw [addChecked,Candidate.checked_of_invalid h]
  rfl

theorem addChecked_of_valid (context : String) {cands : List Candidate} {kind : CandidateKind}
    {addr : SocketAddr} (base : SocketAddr) (h : isValidIp addr.ip = true) (hcands : Prioritised cands)
    (hkind : kind.typePreference < 126) (hnew : kind ∉ cands.map (·.kind)) :
    ∃ cands', addChecked context cands kind addr base = .ok cands' ∧
      Added cands ⟨addr,base,kind,none,false⟩ cands' := by
  rw [addChecked,Candidate.checked_of_valid h]
  have hsame : sameKind cands ⟨addr,base,kind,none,false⟩ = 0 := by
    unfold sameKind
    rw [List.filter_eq_nil_iff.mpr]
    · rfl
    · intro v hv _
      have hmem := List.mem_filter.mp hv
      exact hnew (List.mem_map.mpr ⟨v,hmem.1,of_decide_eq_true hmem.2⟩)
  exact addLocalCandidate_added hcands hkind (by rw [hsame]; exact Nat.zero_le _)

/-- The loop over the STUN servers comes down to the first address in their answers. -/
theorem gatherSrflx_eq (env : Surroundings) (localAddr : SocketAddr) (cands : List Candidate)
    (urls : List (List Char)) (s : Socket) : gatherSrflx env localAddr cands urls s =
      match srflx? env urls s with
      | (some addr,s) =>
        addChecked "srflx candidate" cands .serverReflexive addr localAddr >>= fun cands => .ok (cands,s)
      | (none,s) => .ok (cands,s) := by
  induction urls generalizing s with
  | nil => rfl
  | cons url urls ih =>
    rw [gatherSrflx,srflx?]
    cases haddr : stunAddr env url with
    | panicked => exact absurd haddr (serverAddr_ne_panicked env _ _ url)
    | err e => exact ih s
    | ok addr =>
      have hbinding : stunBinding addr (env.clock s.now) s =
        (answer (bindingWait env addr s) "STUN binding timeout" parseStunResponse,
          (bindingWait env addr s).socket) := rfl
      simp only [hbinding]
      cases hreply : reply? (bindingWait env addr s) with
      | none =>
        obtain ⟨e,he⟩ := answer_of_no_reply hreply "STUN binding timeout" parseStunResponse
        rw [he]
        exact ih _
      | some data =>
        rw [answer_of_reply hreply,Option.bind_some]
        rcases cases_of_attempt (parseStunResponse_attempt data) with ⟨srflxAddr,hx,ho⟩ | ⟨e,hx,ho⟩
        · rw [hx,ho]
          simp only [addChecked,bind_bind]
          rfl
        · rw [hx,ho]
          exact ih _

/-- Candidates to which a relay candidate can be added. -/
structure Ready (cands : List Candidate) : Prop where
  prioritised : Prioritised cands
  relayed : .relayed ∉ cands.map (·.kind)

theorem gatherSrflx_iff (env : Surroundings) {cands : List Candidate} (localAddr : SocketAddr)
    (urls : List (List Char)) (s : Socket) (hcands : Ready cands)
    (hnew : .serverReflexive ∉ cands.map (·.kind)) :
    ((∃ r, gatherSrflx env localAddr cands urls s = .ok r) ↔
      ∀ addr, (srflx? env urls s).1 = some addr → isValidIp addr.ip = true) ∧
    ∀ cands' s', gatherSrflx env localAddr cands urls s = .ok (cands',s') →
      s' = (srflx? env urls s).2 ∧ Ready cands' ∧
        ∀ addr, Registered cands addr → Registered cands' addr := by
  rw [gatherSrflx_eq]
  rcases srflx? env urls s with ⟨_ | addr,s₁⟩
  · refine ⟨⟨?_,fun _ => ⟨_,rfl⟩⟩,?_⟩
    · intro _ addr h
      cases h
    · intro cands' s' h
      cases h
      exact ⟨rfl,hcands,fun _ h => h⟩
  · cases hvalid : isValidIp addr.ip with
    | false =>
      simp only [addChecked_of_invalid hvalid,err_bind]
      refine ⟨⟨?_,?_⟩,?_⟩
      · rintro ⟨r,h⟩
        cases h
      · intro h
        rw [h addr rfl] at hvalid
        cases hvalid
      · intro cands' s' h
        cases h
    | true =>
      obtain ⟨added,hadd,hadded⟩ := addChecked_of_valid "srflx candidate" localAddr hvalid
        hcands.prioritised (by decide) hnew
      simp only [hadd,ok_bind]
      refine ⟨⟨?_,fun _ => ⟨_,rfl⟩⟩,?_⟩
      · intro _ addr' h
        cases h
        exact hvalid
      · intro cands' s' h
        cases h
        refine ⟨rfl,⟨hadded.prioritised,?_⟩,hadded.registered⟩
        intro hmem
        rcases hadded.kinds with hkinds | hkinds
        · exact hcands.relayed (hkinds ▸ hmem)
        · rw [hkinds] at hmem
          rcases List.mem_append.mp hmem with hmem | hmem
          · exact hcands.relayed hmem
          · cases List.mem_singleton.mp hmem

section Credentials
variable (md5Hash : Bytes → Bytes) (hmacSha1 : Bytes → Bytes → Bytes)

theorem turnAllocate_fst (addr : SocketAddr) (user pass : String) (nanos₁ nanos₂ : ℕ) (s : Socket) :
    (turnAllocate md5Hash hmacSha1 addr user pass nanos₁ nanos₂ s).1 =
      let w := (allocateExchange₁ addr nanos₁).wait (.zeros 1024) s
      (answer w "TURN allocate step1 timeout" fun data => (parseTurnError401 data).mapErr fun e =>
        s!"TURN server did not return 401 with realm/nonce: {e}") >>= fun auth =>
      let ts := ⟨addr,auth.1,auth.2,user,pass⟩
      answer ((allocateExchange₂ md5Hash hmacSha1 ts nanos₂).wait w.buf w.socket)
        "TURN allocate step2 timeout" parseAllocateResponse >>= fun relay => .ok (relay,ts) := by
  unfold turnAllocate
  simp only
  cases answer ((allocateExchange₁ addr nanos₁).wait (.zeros 1024) s) "TURN allocate step1 timeout" _ with
  | panicked => rfl
  | err e => rfl
  | ok auth =>
    rcases auth with ⟨realm,nonce⟩
    rw [ok_bind]
    simp only
    cases answer _ "TURN allocate step2 timeout" parseAllocateResponse <;> rfl

/-- The answer to the second request of `turn_allocate`, if it comes to that. -/
def secondReply? (addr : SocketAddr) (user pass : String) (nanos₁ nanos₂ : ℕ) (s : Socket) : Option Bytes :=
  let w := (allocateExchange₁ addr nanos₁).wait (.zeros 1024) s
  match (reply? w).map parseTurnError401 with
  | some (.ok (realm,nonce)) =>
    reply? ((allocateExchange₂ md5Hash hmacSha1 ⟨addr,realm,nonce,user,pass⟩ nanos₂).wait w.buf w.socket)
  | _ => none

section Allocate
variable {md5Hash hmacSha1} {addr : SocketAddr} {user pass : String} {nanos₁ nanos₂ : ℕ} {s : Socket}

variable (md5Hash hmacSha1 addr user pass nanos₁ nanos₂ s) in
theorem turnAllocate_second :
    ((∃ e, (turnAllocate md5Hash hmacSha1 addr user pass nanos₁ nanos₂ s).1 = .err e) ∧
      secondReply? md5Hash hmacSha1 addr user pass nanos₁ nanos₂ s = none) ∨
    ∃ (ts : TurnState) (w : Waited 1024), secondReply? md5Hash hmacSha1 addr user pass nanos₁ nanos₂ s = reply? w ∧
      (turnAllocate md5Hash hmacSha1 addr user pass nanos₁ nanos₂ s).1 =
        answer w "TURN allocate step2 timeout" parseAllocateResponse >>= fun relay => .ok (relay,ts) := by
  rw [turnAllocate_fst]
  unfold secondReply?
  simp only
  cases hreply : reply? ((allocateExchange₁ addr nanos₁).wait (.zeros 1024) s) with
  | none =>
    obtain ⟨e,he⟩ := answer_of_no_reply hreply "TURN allocate step1 timeout" _
    rw [he]
    exact .inl ⟨⟨e,rfl⟩,rfl⟩
  | some data =>
    rw [answer_of_reply hreply,Option.map_some]
    cases hparse : parseTurnError401 data with
    | panicked => exact absurd hparse (parseTurnError401_ne_panicked data)
    | err e => exact .inl ⟨⟨_,rfl⟩,rfl⟩
    | ok auth => exact .inr ⟨⟨addr,auth.1,auth.2,user,pass⟩,_,rfl,rfl⟩

theorem turnAllocate_of_no_reply
    (h : secondReply? md5Hash hmacSha1 addr user pass nanos₁ nanos₂ s = none) :
    ∃ e, (turnAllocate md5Hash hmacSha1 addr user pass nanos₁ nanos₂ s).1 = .err e := by
  rcases turnAllocate_second md5Hash hmacSha1 addr user pass nanos₁ nanos₂ s with ⟨hfailed,_⟩ | ⟨ts,w,hw,hresult⟩
  · exact hfailed
  · obtain ⟨e,he⟩ := answer_of_no_reply (hw ▸ h) "TURN allocate step2 timeout" parseAllocateResponse
    refine ⟨e,?_⟩
    rw [hresult,he]
    rfl

theorem turnAllocate_of_reply {resp : Bytes}
    (h : secondReply? md5Hash hmacSha1 addr user pass nanos₁ nanos₂ s = some resp) :
    ∃ ts, (turnAllocate md5Hash hmacSha1 addr user pass nanos₁ nanos₂ s).1 =
      parseAllocateResponse resp >>= fun relay => .ok (relay,ts) := by
  rcases turnAllocate_second md5Hash hmacSha1 addr user pass nanos₁ nanos₂ s with ⟨_,hnone⟩ | ⟨ts,w,hw,hresult⟩
  · rw [hnone] at h
    cases h
  · refine ⟨ts,?_⟩
    rw [hresult,answer_of_reply (hw ▸ h)]

end Allocate

theorem allocate_of_no_reply {env : Surroundings} {addr : SocketAddr} {user pass : String} {s : Socket}
    (h : allocateReply? md5Hash hmacSha1 env addr user pass s = none) :
    ∃ e, allocate md5Hash hmacSha1 env addr user pass s = .err e :=
  turnAllocate_of_no_reply h

theorem allocate_of_reply {env : Surroundings} {addr : SocketAddr} {user pass : String} {s : Socket}
    {resp : Bytes} (h : allocateReply? md5Hash hmacSha1 env addr user pass s = some resp) :
    ∃ ts, allocate md5Hash hmacSha1 env addr user pass s =
      parseAllocateResponse resp >>= fun relay => .ok (relay,ts) :=
  turnAllocate_of_reply h

def addRelay (cands : List Candidate) :
    Outcome String (SocketAddr × TurnState) → Outcome RunError Gathered
  | .ok (raddr,state) => addChecked "relay candidate" cands .relayed raddr raddr >>= fun cands =>
    .ok ⟨cands,some raddr,some state⟩
  | .err _ => .ok ⟨cands,none,none⟩
  | .panicked => .panicked

theorem gatherRelay_cases (env : Surroundings) (cfg : IceConfig) (cands : List Candidate) (s : Socket) :
    (turnReply? md5Hash hmacSha1 env cfg s = none ∧
      gatherRelay md5Hash hmacSha1 env cfg cands s = .ok ⟨cands,none,none⟩) ∨
    ∃ resp ts, turnReply? md5Hash hmacSha1 env cfg s = some resp ∧
      gatherRelay md5Hash hmacSha1 env cfg cands s =
        addRelay cands (parseAllocateResponse resp >>= fun relay => .ok (relay,ts)) := by
  have hadd : ∀ x : Outcome String (SocketAddr × TurnState), (match x with
      | .ok (raddr,state) => do
        let cand ← (Candidate.relayed raddr).mapErr (RunError.mk "relay candidate")
        .ok ⟨← addLocalCandidate cands cand,some raddr,some state⟩
      | .err _ => .ok ⟨cands,none,none⟩
      | .panicked => .panicked) = addRelay cands x := by
    intro x
    match x with
    | .ok (raddr,state) =>
      simp only [addRelay,addChecked,bind_bind]
      rfl
    | .err e => rfl
    | .panicked => rfl
  unfold gatherRelay turnReply?
  split
  · rename_i url user pass _ _ _
    rw [hadd]
    cases haddr : turnAddr env url with
    | panicked => exact absurd haddr (serverAddr_ne_panicked env _ _ url)
    | err e => exact .inl ⟨rfl,rfl⟩
    | ok addr =>
      rw [ok_bind]
      simp only
      cases hreply : allocateReply? md5Hash hmacSha1 env addr user pass s with
      | none =>
        obtain ⟨e,he⟩ := allocate_of_no_reply md5Hash hmacSha1 hreply
        rw [he]
        exact .inl ⟨rfl,rfl⟩
      | some resp =>
        obtain ⟨ts,hts⟩ := allocate_of_reply md5Hash hmacSha1 hreply
        exact .inr ⟨resp,ts,rfl,by rw [hts]⟩
  · exact .inl ⟨rfl,rfl⟩

/-- The relay address of an answer is registered unless str0m refuses it. -/
theorem addRelay_iff {cands : List Candidate} (hcands : Ready cands) (resp : Bytes) (ts : TurnState)
    {result : Outcome RunError Gathered}
    (hrun : result = addRelay cands (parseAllocateResponse resp >>= fun relay => .ok (relay,ts))) :
    ((∃ g, result = .ok g) ↔
      2 ≤ resp.length ∧ ∀ addr, relayAddr? resp = some addr → isValidIp addr.ip = true) ∧
    ∀ g, result = .ok g → ∀ addr, Registered cands addr → Registered g.candidates addr := by
  by_cases hlen : resp.length < 2
  · rw [hrun,parseAllocateResponse_short hlen]
    refine ⟨⟨?_,fun h => absurd hlen (Nat.not_lt.mpr h.1)⟩,?_⟩
    · rintro ⟨g,h⟩
      cases h
    · intro g h
      cases h
  · have hlen' : 2 ≤ resp.length := Nat.not_lt.mp hlen
    rcases cases_of_attempt (parseAllocateResponse_attempt hlen') with ⟨raddr,hx,ho⟩ | ⟨e,hx,ho⟩
    · rw [hx,ok_bind,addRelay] at hrun
      cases hvalid : isValidIp raddr.ip with
      | false =>
        rw [addChecked_of_invalid hvalid,err_bind] at hrun
        rw [hrun,ho]
        refine ⟨⟨?_,?_⟩,?_⟩
        · rintro ⟨g,h⟩
          cases h
        · rintro ⟨-,h⟩
          rw [h raddr rfl] at hvalid
          cases hvalid
        · intro g h
          cases h
      | true =>
        obtain ⟨added,hadd,hadded⟩ := addChecked_of_valid "relay candidate" raddr hvalid
          hcands.prioritised (by decide) hcands.relayed
        rw [hadd,ok_bind] at hrun
        rw [hrun,ho]
        refine ⟨⟨fun _ => ⟨hlen',?_⟩,fun _ => ⟨_,rfl⟩⟩,?_⟩
        · intro addr h
          rw [← Option.some.inj h]
          exact hvalid
        · intro g h
          rw [← Outcome.ok.inj h]
          exact hadded.registered
    · rw [hx,err_bind,addRelay] at hrun
      rw [hrun,ho]
      refine ⟨⟨fun _ => ⟨hlen',nofun⟩,fun _ => ⟨_,rfl⟩⟩,?_⟩
      intro g h addr hreg
      rwa [← Outcome.ok.inj h]

theorem gatherRelay_iff (env : Surroundings) (cfg : IceConfig) {cands : List Candidate} (s : Socket)
    (hcands : Ready cands) :
    ((∃ g, gatherRelay md5Hash hmacSha1 env cfg cands s = .ok g) ↔
      ∀ resp, turnReply? md5Hash hmacSha1 env cfg s = some resp →
        2 ≤ resp.length ∧ ∀ addr, relayAddr? resp = some addr → isValidIp addr.ip = true) ∧
    ∀ g, gatherRelay md5Hash hmacSha1 env cfg cands s = .ok g →
      ∀ addr, Registered cands addr → Registered g.candidates addr := by
  rcases gatherRelay_cases md5Hash hmacSha1 env cfg cands s with
    ⟨hreply,hrun⟩ | ⟨resp,ts,hreply,hrun⟩
  · rw [hreply,hrun]
    refine ⟨⟨fun _ => nofun,fun _ => ⟨_,rfl⟩⟩,?_⟩
    intro g hg addr hreg
    rwa [← Outcome.ok.inj hg]
  · have hadd := addRelay_iff hcands resp ts hrun
    simpa only [hreply,Option.some.injEq,forall_eq'] using hadd

/-- The host candidates of a session, with the addresses that they stand for. -/
theorem hostCandidates_iff (port : UInt16) {localIps : List IpAddr}
    (hv4 : ∀ ip ∈ localIps,ip.isV6 = false) (hnodup : localIps.Nodup) :
    ((∃ cands, hostCandidates port localIps = .ok cands) ↔
      (∀ ip ∈ localIps,isValidIp ip = true) ∧ localIps.length ≤ 32768) ∧
    ∀ cands, hostCandidates port localIps = .ok cands →
      ∃ ips, HostsOf port ips cands ∧ localIps ⊆ ips := by
  cases localIps with
  | nil =>
    have hone : hostCandidates port [] = .ok [hostAt ⟨localhost,port⟩ 65534] :=
      registerHost_eq (hostsOf_nil port) (fun _ h => nomatch h) rfl List.not_mem_nil
    rw [hone]
    refine ⟨⟨fun _ => ⟨?_,Nat.zero_le _⟩,fun _ => ⟨_,rfl⟩⟩,?_⟩
    · intro ip hip
      cases hip
    · intro cands h
      rw [← Outcome.ok.inj h]
      exact ⟨[localhost],(hostsOf_nil port).snoc localhost (by decide),List.nil_subset _⟩
  | cons ip rest =>
    have hrun := registerHosts_iff (hostsOf_nil port) hv4 hnodup (Nat.zero_le 32768)
    exact ⟨hrun.1,fun cands h => ⟨_,hrun.2 cands h,List.Subset.refl _⟩⟩

theorem isLinkLocal_of_valid {ip : IpAddr} (hv4 : ip.isV6 = false) (h : isValidIp ip = true) :
    ip.isLinkLocal = false := by
  cases ip with
  | v4 bits =>
    simp only [isValidIp,Bool.and_eq_true,Bool.not_eq_true'] at h
    exact h.1.1.1
  | v6 bits => cases hv4

/-- Gathering cannot end a session exactly if all that it is told is harmless. -/
theorem gathers_iff (env : Surroundings) (cfg : IceConfig) :
    Gathers md5Hash hmacSha1 env cfg ↔ Harmless md5Hash hmacSha1 env cfg := by
  let localAddr : SocketAddr := ⟨(getLocalIps env.interfaces).head?.getD localhost,env.port⟩
  have hv4 : ∀ ip ∈ getLocalIps env.interfaces,ip.isV6 = false :=
    fun ip hip => isV6_of_mem (mem_getLocalIps.mp hip)
  have hhosts := hostCandidates_iff env.port hv4 (nodup_getLocalIps env.interfaces)
  rw [length_getLocalIps] at hhosts
  simp only [mem_getLocalIps] at hhosts
  have hready : ∀ cands, hostCandidates env.port (getLocalIps env.interfaces) = .ok cands →
      Ready cands ∧ .serverReflexive ∉ cands.map (·.kind) := by
    intro cands hcands
    obtain ⟨ips,hips,-⟩ := hhosts.2 cands hcands
    exact ⟨⟨hips.prioritised,hips.kind (by decide)⟩,hips.kind (by decide)⟩
  constructor
  · intro h
    obtain ⟨g,hg,-⟩ := h.offered
    obtain ⟨cands,hcands,hg⟩ := bind_eq_ok.mp hg
    obtain ⟨⟨cands',s⟩,hsrflx,hrelay⟩ := bind_eq_ok.mp hg
    obtain ⟨hcandsReady,hnew⟩ := hready cands hcands
    have hstun := gatherSrflx_iff env localAddr cfg.stunServers env.socket hcandsReady hnew
    obtain ⟨rfl,hready',-⟩ := hstun.2 cands' s hsrflx
    have hturn := gatherRelay_iff md5Hash hmacSha1 env cfg (srflx? env cfg.stunServers env.socket).2 hready'
    obtain ⟨haddresses,hfew⟩ := hhosts.1.mp ⟨cands,hcands⟩
    exact ⟨haddresses,hfew,hstun.1.mp ⟨_,hsrflx⟩,hturn.1.mp ⟨g,hrelay⟩⟩
  · intro h
    obtain ⟨cands,hcands⟩ := hhosts.1.mpr ⟨h.addresses,h.few⟩
    obtain ⟨ips,hips,hall⟩ := hhosts.2 cands hcands
    obtain ⟨hcandsReady,hnew⟩ := hready cands hcands
    have hstun := gatherSrflx_iff env localAddr cfg.stunServers env.socket hcandsReady hnew
    obtain ⟨⟨cands',s⟩,hsrflx⟩ := hstun.1.mpr h.srflx
    obtain ⟨rfl,hready',hreg⟩ := hstun.2 cands' s hsrflx
    have hturn := gatherRelay_iff md5Hash hmacSha1 env cfg (srflx? env cfg.stunServers env.socket).2 hready'
    obtain ⟨g,hrelay⟩ := hturn.1.mpr h.relay
    refine ⟨nodup_getLocalIps _,?_,g,?_,?_⟩
    · intro ip hip
      have hmem := mem_getLocalIps.mp hip
      obtain ⟨hloopback,hunspecified⟩ := isForeign_of_mem hmem
      have hvalid := h.addresses ip hmem
      exact ⟨hloopback,isLinkLocal_of_valid (isV6_of_mem hmem) hvalid,hunspecified,
        ⟨_,Candidate.checked_of_valid hvalid⟩⟩
    · exact bind_eq_ok.mpr ⟨cands,hcands,bind_eq_ok.mpr ⟨_,hsrflx,hrelay⟩⟩
    · intro ip hip _
      exact hturn.2 g hrelay _ (hreg _ (hips.registered (hall (mem_getLocalIps.mpr hip))))

end Credentials

/-- The table of a machine with 192.168.1.5 and an address that it has given itself. -/
def zeroconfTable : List Char :=
  ("Main:\n  +-- 0.0.0.0/0 3 0 5\n     |-- 127.0.0.1\n        /32 host LOCAL\n" ++
    "     |-- 169.254.7.9\n        /32 host LOCAL\n     |-- 192.168.1.5\n        /32 host LOCAL\n").toList

def zeroconfMachine : Surroundings where
  interfaces := ⟨some 0xC0A80105,some zeroconfTable⟩
  lookupHost := fun _ => .error "no resolver"
  clock := id
  port := 40000
  socket := ⟨0,[]⟩

def withoutServers : IceConfig := ⟨[],none,none,none⟩

theorem zeroconf_kills_session : ∃ env cfg, ∀ md5Hash hmacSha1,
    gather md5Hash hmacSha1 env cfg = .err ⟨"host candidate",.invalidIp (.v4 0xA9FE0709)⟩ ∧
    ¬ Gathers md5Hash hmacSha1 env cfg := by
  refine ⟨zeroconfMachine,withoutServers,fun md5Hash hmacSha1 => ?_⟩
  have hhosts : hostCandidates 40000 (getLocalIps zeroconfMachine.interfaces) =
      .err ⟨"host candidate",.invalidIp (.v4 0xA9FE0709)⟩ := by decide +kernel
  have hrun : gather md5Hash hmacSha1 zeroconfMachine withoutServers =
      .err ⟨"host candidate",.invalidIp (.v4 0xA9FE0709)⟩ := by
    change (hostCandidates 40000 (getLocalIps zeroconfMachine.interfaces) >>= _) = _
    rw [hhosts]
    rfl
  refine ⟨hrun,fun h => ?_⟩
  obtain ⟨g,hg,-⟩ := h.offered
  rw [hrun] at hg
  cases hg

end Gathering
end AnyKvm
