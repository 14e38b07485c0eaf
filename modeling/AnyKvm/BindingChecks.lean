import AnyKvm.StunRoundTrip

/-! `agent.rs`, `pair.rs`: the binding requests with which two ICE agents check their candidate pairs, and the
replies. What the tables of candidates and the priorities decide is chosen by the action, and so is when the
nomination is evaluated, which the code also does after a message. -/
namespace AnyKvm
namespace Checks

open Outcome Stun
open Turn (SocketAddr)

structure IceCreds where
  ufrag : String
  pass : String
  deriving DecidableEq, Repr

inductive CheckState
  | waiting | inProgress | succeeded
  deriving DecidableEq, Repr

inductive NominationState
  | none | nominated | attempt | success
  deriving DecidableEq, Repr

structure BindingAttempt where
  transId : TransId
  nominated : Bool
  deriving DecidableEq, Repr

structure CandidatePair where
  state : CheckState := .waiting
  bindingAttempts : List BindingAttempt := []
  nominationState : NominationState := .none
  deriving DecidableEq, Repr

def stunMaxRetrans : ℕ := 9

namespace CandidatePair

def new : CandidatePair := {}

variable (p : CandidatePair)

def isNominated : Bool := p.nominationState ≠ .none

def nominate (forceSuccess : Bool) : Panicking CandidatePair :=
  if p.nominationState = .none then
    .ok { p with nominationState := if forceSuccess then .success else .nominated }
  else .panicked

/-- What an agent chooses from when it evaluates the nomination. -/
def eligible (controlling : Bool) : Bool :=
  if controlling then p.state = .succeeded else p.isNominated

/-- The transaction is drawn at random. -/
def newAttempt (transId : TransId) : CandidatePair :=
  let nominationState := if p.nominationState = .nominated then .attempt else p.nominationState
  let attempts := p.bindingAttempts ++ [⟨transId,nominationState ≠ .none⟩]
  { state := if p.state = .waiting then .inProgress else p.state
    bindingAttempts := attempts.drop (attempts.length - stunMaxRetrans)
    nominationState }

def hasBindingAttempt (transId : TransId) : Bool := p.bindingAttempts.any (·.transId = transId)

def recordBindingResponse (transId : TransId) : Panicking CandidatePair :=
  match p.bindingAttempts.find? (·.transId = transId) with
  | none => .panicked
  | some attempt => .ok { p with
      nominationState := if attempt.nominated ∧ p.nominationState = .attempt then .success else p.nominationState
      state := if p.state = .inProgress then .succeeded else p.state }

end CandidatePair

structure IceAgent where
  iceLite : Bool
  localCredentials : IceCreds
  remoteCredentials : Option IceCreds
  controlling : Bool
  controlTieBreaker : UInt64
  candidatePairs : List CandidatePair

def datagramMtu : ℕ := 1150

/-- A message as a datagram; it has to fit. -/
def datagram [Crates] (m : Message) (password : String) : Panicking Bytes :=
  match m.toBytes password (List.replicate datagramMtu 0) with
  | .ok (buf,n) => .ok (buf.take n)
  | _ => .panicked

namespace IceAgent
variable (agent : IceAgent)

def stunCredentials (reply : Bool) : Panicking (String × String) :=
  if reply then .ok ("not_used" ++ ":" ++ "not_used",agent.localCredentials.pass)
  else match agent.remoteCredentials with
    | some peer => .ok (peer.ufrag ++ ":" ++ agent.localCredentials.ufrag,peer.pass)
    | none => .panicked

def integrityCheck [Crates] (message : Message) (isRequest : Bool) : Panicking Bool := do
  let (_,password) ← agent.stunCredentials isRequest
  message.checkIntegrity password

def acceptsMessage [Crates] (message : Message) : Panicking Bool :=
  match message.method with
  | .unknown => .ok false
  | .binding =>
    match message.cls with
    | .request | .indication =>
      match message.attrs.splitUsername with
      | none => .panicked
      | some (here,there) =>
        if here ≠ agent.localCredentials.ufrag.toList then .ok false
        else if agent.remoteCredentials.any fun creds => there ≠ creds.ufrag.toList then .ok false
        else agent.integrityCheck message true
    | .success | .failure =>
      if agent.candidatePairs.any (·.hasBindingAttempt message.transId) then agent.integrityCheck message false
      else .ok false
    | .unknown => .ok false

def stunClientBindingRequest [Crates] (pairIdx : ℕ) (transId : TransId) (prio : UInt32) :
    Panicking (IceAgent × Message × Bytes) := do
  let (username,password) ← agent.stunCredentials false
  match agent.candidatePairs[pairIdx]? with
  | none => .panicked
  | some pair =>
    let useCandidate := agent.controlling && pair.isNominated
    let binding := Message.bindingRequest username transId agent.controlling agent.controlTieBreaker prio useCandidate
    let contents ← datagram binding password
    .ok ({ agent with candidatePairs := agent.candidatePairs.set pairIdx (pair.newAttempt transId) },binding,contents)

def evaluateNomination (pairIdx : ℕ) : Panicking IceAgent :=
  match agent.candidatePairs[pairIdx]? with
  | none => .ok agent
  | some pair =>
    if pair.eligible agent.controlling ∧ !pair.isNominated ∧ (agent.controlling || agent.iceLite) then do
      let pair ← pair.nominate agent.iceLite
      .ok { agent with candidatePairs := agent.candidatePairs.set pairIdx pair }
    else .ok agent

/-- The pair of the candidates that the request is for, a new one if the index is that of none; a request for no
candidate is discarded. -/
def stunServerHandleRequest [Crates] (message : Message) (there : List Char) (source : SocketAddr) (found : Option ℕ) :
    Panicking (IceAgent × Option Bytes) :=
  match agent.remoteCredentials with
  | none => .panicked
  | some creds =>
    if there ≠ creds.ufrag.toList then .ok (agent,none)
    else if message.attrs.useCandidate ∧ agent.controlling then .ok (agent,none)
    else match found with
      | none => .ok (agent,none)
      | some i => do
        let pairs := if i < agent.candidatePairs.length then agent.candidatePairs else agent.candidatePairs ++ [.new]
        let i := min i agent.candidatePairs.length
        let pair := pairs.getD i .new
        let pair ← (if !agent.controlling && !pair.isNominated && message.attrs.useCandidate then
            pair.nominate agent.iceLite
          else .ok pair)
        let (_,password) ← agent.stunCredentials true
        let contents ← datagram (Message.reply message.transId source) password
        .ok ({ agent with candidatePairs := pairs.set i pair },some contents)

/-- Without remote credentials a request waits for them; it is not answered. -/
def stunServerHandleMessage [Crates] (message : Message) (source : SocketAddr) (found : Option ℕ) :
    Panicking (IceAgent × Option Bytes) :=
  match message.attrs.priority,message.attrs.splitUsername with
  | some _,some (_,there) =>
    if agent.remoteCredentials.isSome then agent.stunServerHandleRequest message there source found
    else .ok (agent,none)
  | _,_ => .panicked

def stunClientHandleResponse (message : Message) : Panicking IceAgent :=
  match agent.candidatePairs.findIdx? (·.hasBindingAttempt message.transId) with
  | none => .ok agent
  | some i =>
    match message.attrs.xorMappedAddress with
    | none => .panicked
    | some _ => do
      let pair ← (agent.candidatePairs.getD i .new).recordBindingResponse message.transId
      .ok { agent with candidatePairs := agent.candidatePairs.set i pair }

def handlePacket [Crates] (message : Message) (source : SocketAddr) (found : Option ℕ) :
    Panicking (IceAgent × Option Bytes) := do
  if !(← agent.acceptsMessage message) then .ok (agent,none)
  else if message.method = .binding ∧ message.cls = .request then
    agent.stunServerHandleMessage message source found
  else if message.method = .binding ∧ message.cls = .success then do
    let agent ← agent.stunClientHandleResponse message
    .ok (agent,none)
  else .ok (agent,none)

end IceAgent

inductive Role
  | controlling | controlled
  deriving DecidableEq, Repr

def Role.peer : Role → Role
  | .controlling => .controlled
  | .controlled => .controlling

/-- The agents, the datagrams on the way to each, with the USE-CANDIDATE flag of each the transactions of the requests
that each has sent and that it has answered, and the pairs that it has given up. -/
structure State where
  agents : Role → IceAgent
  sent : Role → List Bytes
  requested : Role → List (TransId × Bool)
  answered : Role → List (TransId × Bool)
  pruned : Role → List CandidatePair

inductive Action
  | request (role : Role) (pairIdx : ℕ) (transId : TransId) (prio : UInt32)
  | receive (role : Role) (contents : Bytes) (source : SocketAddr) (found : Option ℕ)
  | evaluateNomination (role : Role) (pairIdx : ℕ)
  | prune (role : Role) (pairIdx : ℕ)

/-- Datagrams may be lost, delayed and duplicated, and transactions are not drawn twice. -/
def Enabled (s : State) : Action → Prop
  | .request role pairIdx transId _ =>
    pairIdx < (s.agents role).candidatePairs.length ∧ ∀ use, (transId,use) ∉ s.requested role
  | .receive role contents _ _ => contents ∈ s.sent role
  | .evaluateNomination _ _ => True
  | .prune _ _ => True

def State.setAgent (s : State) (role : Role) (agent : IceAgent) : State :=
  { s with agents := Function.update s.agents role agent }

def State.prune (s : State) (role : Role) (pairIdx : ℕ) : State :=
  { s.setAgent role { s.agents role with candidatePairs := (s.agents role).candidatePairs.eraseIdx pairIdx } with
    pruned := Function.update s.pruned role ((s.agents role).candidatePairs[pairIdx]?.toList ++ s.pruned role) }

def State.send (s : State) (role : Role) (contents : Bytes) : State :=
  { s with sent := Function.update s.sent role (contents :: s.sent role) }

def State.logRequest (s : State) (role : Role) (m : Message) : State :=
  { s with requested := Function.update s.requested role ((m.transId,m.attrs.useCandidate) :: s.requested role) }

def State.logAnswer (s : State) (role : Role) (m : Message) : State :=
  { s with answered := Function.update s.answered role ((m.transId,m.attrs.useCandidate) :: s.answered role) }

def perform [Crates] (t : Target) (s : State) : Action → Panicking State
  | .request role pairIdx transId prio => do
    let (agent,binding,contents) ← (s.agents role).stunClientBindingRequest pairIdx transId prio
    .ok (((s.logRequest role binding).setAgent role agent).send role.peer contents)
  | .receive role contents source found =>
    match Message.parse t contents with
    | .ok message => do
      match ← (s.agents role).handlePacket message source found with
      | (agent,none) => .ok (s.setAgent role agent)
      | (agent,some reply) => .ok (((s.setAgent role agent).logAnswer role message).send role.peer reply)
    | .err _ => .ok s
    | .panicked => .panicked
  | .evaluateNomination role pairIdx => do
    let agent ← (s.agents role).evaluateNomination pairIdx
    .ok (s.setAgent role agent)
  | .prune role pairIdx => .ok (s.prune role pairIdx)

def step [Crates] (t : Target) (s : State) (a : Action) : Option State :=
  match perform t s a with
  | .ok s' => some s'
  | _ => none

@[simp] theorem Role.peer_peer (role : Role) : role.peer.peer = role := by
  cases role <;> rfl

def username (creds : Role → IceCreds) (role : Role) : String :=
  (creds role).ufrag ++ ":" ++ (creds role.peer).ufrag

/-- Fragments that can be told apart in a user name that is not too long to be read. -/
structure Named (creds : Role → IceCreds) : Prop where
  plain : ∀ role, ':' ∉ (creds role).ufrag.toList
  nonempty : ∀ role, (creds role).ufrag.toList ≠ []
  short : ∀ role, (username creds role).toUTF8.toList.length ≤ 128

/-- What does not change of an agent. -/
structure Paired (creds : Role → IceCreds) (role : Role) (agent : IceAgent) : Prop where
  localCredentials : agent.localCredentials = creds role
  remoteCredentials : agent.remoteCredentials = some (creds role.peer)
  controlling : agent.controlling = decide (role = .controlling)
  iceLite : agent.iceLite = false

theorem upTo_colon {name : List Char} (h : ':' ∉ name) (rest : List Char) :
    Text.upTo [':'] (name ++ ':' :: rest) = name := by
  induction name with
  | nil => simp [Text.upTo]
  | cons c name ih =>
    obtain ⟨hc,hname⟩ := not_or.mp (mt List.mem_cons.mpr h)
    have hmarker : ¬ [':'] <+: c :: (name ++ ':' :: rest) := fun hp => hc (List.cons_prefix_cons.mp hp).1
    rw [List.cons_append,Text.upTo,if_neg hmarker,ih hname]

theorem after?_colon {name : List Char} (h : ':' ∉ name) (rest : List Char) :
    Text.after? [':'] (name ++ ':' :: rest) = some rest := by
  induction name with
  | nil => exact Text.after?_append [':'] rest
  | cons c name ih =>
    obtain ⟨hc,hname⟩ := not_or.mp (mt List.mem_cons.mpr h)
    have hmarker : ¬ [':'] <+: c :: (name ++ ':' :: rest) := fun hp => hc (List.cons_prefix_cons.mp hp).1
    rw [List.cons_append,Text.after?,if_neg hmarker,ih hname]

section Messages
variable {creds : Role → IceCreds} {role : Role} {agent : IceAgent}

/-- The parser asks for the user name of requests only. -/
theorem indication_panics [Crates] {m : Message} (hmethod : m.method = .binding) (hcls : m.cls = .indication)
    (hname : m.attrs.username = none) : m.complete = .ok m ∧ agent.acceptsMessage m = .panicked := by
  constructor
  · rw [Message.complete_iff,hcls]
    exact ⟨fun h => (nomatch h.2),fun h => (nomatch h.2)⟩
  · have hsplit : m.attrs.splitUsername = none := by
      rw [Attributes.splitUsername,hname]
      rfl
    rw [IceAgent.acceptsMessage,hmethod,hcls]
    simp only [hsplit]

theorem splitUsername_eq (hnamed : Named creds) {a : Attributes} (ha : a.username = some (username creds role)) :
    a.splitUsername = some ((creds role).ufrag.toList,(creds role.peer).ufrag.toList) := by
  have hlist : (username creds role).toList =
      (creds role).ufrag.toList ++ ':' :: (creds role.peer).ufrag.toList := by
    simp [username,String.toList_append]
  have hafter := after?_colon (hnamed.plain role) (creds role.peer).ufrag.toList
  have hupTo := upTo_colon (hnamed.plain role) (creds role.peer).ufrag.toList
  simp only [Attributes.splitUsername,ha,hlist,hafter,hupTo,Option.bind_eq_bind,Option.bind_some]
  rw [if_neg (hnamed.nonempty role.peer)]

theorem datagram_eq [Crates] {m : Message} (hm : m.Sendable) (password : String) :
    datagram m password = .ok (m.wire password) := by
  have hle := Message.paddedLen_le hm
  have hfits : m.size ≤ (List.replicate datagramMtu (0 : UInt8)).length := by
    rw [List.length_replicate,datagramMtu,Message.size]
    omega
  rw [datagram,Message.toBytes_eq password hm,if_pos hfits,← Message.length_wire password]
  simp only [List.take_left]

theorem sendable_request (hnamed : Named creds) (transId : TransId) (controlling : Bool) (tieBreaker : UInt64)
    (prio : UInt32) (use : Bool) :
    (Message.bindingRequest (username creds role) transId controlling tieBreaker prio use).Sendable :=
  Message.sendable_bindingRequest (hnamed.short role)
    (by rw [splitUsername_eq hnamed rfl,Option.isSome_some]) transId controlling tieBreaker prio use

theorem stunCredentials_request (hagent : Paired creds role agent) :
    agent.stunCredentials false = .ok (username creds role.peer,(creds role.peer).pass) := by
  rw [IceAgent.stunCredentials,if_neg Bool.false_ne_true,hagent.remoteCredentials]
  simp only [hagent.localCredentials,username,Role.peer_peer]

theorem stunCredentials_reply (hagent : Paired creds role agent) :
    agent.stunCredentials true = .ok ("not_used" ++ ":" ++ "not_used",(creds role).pass) := by
  rw [IceAgent.stunCredentials,if_pos rfl,hagent.localCredentials]

theorem integrityCheck_request [Crates] (hagent : Paired creds role agent) (m : Message) :
    agent.integrityCheck (m.received (creds role).pass) true = .ok true := by
  rw [IceAgent.integrityCheck,stunCredentials_reply hagent,ok_bind]
  exact (Message.checkIntegrity_received _ _).trans (congrArg Outcome.ok (decide_eq_true rfl))

theorem integrityCheck_reply [Crates] (hagent : Paired creds role agent) (m : Message) :
    agent.integrityCheck (m.received (creds role.peer).pass) false = .ok true := by
  rw [IceAgent.integrityCheck,stunCredentials_request hagent,ok_bind]
  exact (Message.checkIntegrity_received _ _).trans (congrArg Outcome.ok (decide_eq_true rfl))

theorem request_eq [Crates] (hnamed : Named creds) (hagent : Paired creds role agent) {pairIdx : ℕ}
    (hpair : pairIdx < agent.candidatePairs.length) (transId : TransId) (prio : UInt32) :
    ∃ binding : Message, binding = Message.bindingRequest (username creds role.peer) transId agent.controlling
        agent.controlTieBreaker prio (agent.controlling && agent.candidatePairs[pairIdx].isNominated) ∧
      agent.stunClientBindingRequest pairIdx transId prio =
        .ok ({ agent with candidatePairs :=
            agent.candidatePairs.set pairIdx (agent.candidatePairs[pairIdx].newAttempt transId) },
          binding,binding.wire (creds role.peer).pass) := by
  refine ⟨_,rfl,?_⟩
  rw [IceAgent.stunClientBindingRequest,stunCredentials_request hagent,ok_bind,List.getElem?_eq_getElem hpair]
  simp only
  rw [datagram_eq (sendable_request hnamed _ _ _ _ _),ok_bind]

theorem accepts_request [Crates] (hnamed : Named creds) (hagent : Paired creds role agent) (transId : TransId)
    (controlling : Bool) (tieBreaker : UInt64) (prio : UInt32) (use : Bool) :
    agent.acceptsMessage ((Message.bindingRequest (username creds role) transId controlling tieBreaker prio
      use).received (creds role).pass) = .ok true := by
  have hcheck := integrityCheck_request hagent
    (Message.bindingRequest (username creds role) transId controlling tieBreaker prio use)
  generalize hm : (Message.bindingRequest (username creds role) transId controlling tieBreaker prio
    use).received (creds role).pass = m at hcheck ⊢
  have hmethod : m.method = .binding := by
    subst hm
    rfl
  have hcls : m.cls = .request := by
    subst hm
    rfl
  have hsplit : m.attrs.splitUsername = some ((creds role).ufrag.toList,(creds role.peer).ufrag.toList) :=
    splitUsername_eq hnamed (by subst hm; rfl)
  have hremote : ¬ (agent.remoteCredentials.any fun creds' =>
      decide ((creds role.peer).ufrag.toList ≠ creds'.ufrag.toList)) = true := by
    rw [hagent.remoteCredentials]
    simp
  rw [IceAgent.acceptsMessage,hmethod,hcls]
  simp only [hsplit]
  rw [if_neg (not_not.mpr (by rw [hagent.localCredentials])),if_neg hremote,hcheck]

theorem accepts_reply [Crates] (hagent : Paired creds role agent) (transId : TransId) (source : SocketAddr) :
    agent.acceptsMessage ((Message.reply transId source).received (creds role.peer).pass) =
      .ok (agent.candidatePairs.any (·.hasBindingAttempt transId)) := by
  have hcheck := integrityCheck_reply hagent (Message.reply transId source)
  generalize hm : (Message.reply transId source).received (creds role.peer).pass = m at hcheck ⊢
  have hmethod : m.method = .binding := by
    subst hm
    rfl
  have hcls : m.cls = .success := by
    subst hm
    rfl
  have htrans : m.transId = transId := by
    subst hm
    rfl
  rw [IceAgent.acceptsMessage,hmethod,hcls]
  simp only [htrans,hcheck]
  cases agent.candidatePairs.any (·.hasBindingAttempt transId) <;> rfl

end Messages

/-- One pair is changed, or added. -/
structure Changed (pairs pairs' : List CandidatePair) (p p' : CandidatePair) : Prop where
  before : p ∈ pairs ∨ p = .new
  after : p' ∈ pairs'
  others : ∀ q ∈ pairs', q ∈ pairs ∨ q = .new ∨ q = p'
  nominated : (p.isNominated → p'.isNominated) → (∃ q ∈ pairs, q.isNominated) → ∃ q ∈ pairs', q.isNominated

theorem exists_set {α : Type} {P : α → Prop} {l : List α} {i : ℕ} (hi : i < l.length) {b : α}
    (hb : P l[i] → P b) (h : ∃ a ∈ l, P a) : ∃ a ∈ l.set i b, P a := by
  obtain ⟨a,ha,hp⟩ := h
  obtain ⟨j,hj,rfl⟩ := List.getElem_of_mem ha
  by_cases hij : i = j
  · subst hij
    exact ⟨b,List.mem_set hi b,hb hp⟩
  · exact ⟨l[j],List.mem_of_getElem? (by rw [List.getElem?_set_ne hij,List.getElem?_eq_getElem hj]),hp⟩

theorem changed_set {pairs : List CandidatePair} {i : ℕ} (hi : i < pairs.length) (p' : CandidatePair) :
    Changed pairs (pairs.set i p') pairs[i] p' where
  before := .inl (List.getElem_mem hi)
  after := List.mem_set hi p'
  others := fun _ hq => (List.mem_or_eq_of_mem_set hq).imp_right .inr
  nominated := fun hp h => exists_set hi hp h

theorem changed_append (pairs : List CandidatePair) (p' : CandidatePair) :
    Changed pairs ((pairs ++ [CandidatePair.new]).set pairs.length p') .new p' where
  before := .inr rfl
  after := List.mem_set (by simp) p'
  others := by
    intro q hq
    rcases List.mem_or_eq_of_mem_set hq with h | h
    · rcases List.mem_append.mp h with h | h
      · exact .inl h
      · exact .inr (.inl (List.mem_singleton.mp h))
    · exact .inr (.inr h)
  nominated := by
    rintro - ⟨q,hq,hn⟩
    refine exists_set (by simp) (fun h => ?_) ⟨q,List.mem_append_left _ hq,hn⟩
    rw [List.getElem_append_right (Nat.le_refl _)] at h
    simp [CandidatePair.isNominated,CandidatePair.new] at h

def CandidatePair.asked (p : CandidatePair) (nominate : Bool) : CandidatePair :=
  if nominate && !p.isNominated then { p with nominationState := .nominated } else p

theorem CandidatePair.isNominated_asked (p : CandidatePair) : (p.asked true).isNominated := by
  unfold CandidatePair.asked
  split
  · rfl
  · rename_i h
    simpa using h

theorem nominate_eq {p : CandidatePair} (h : p.isNominated = false) :
    p.nominate false = .ok { p with nominationState := .nominated } := by
  have hnone : p.nominationState = .none := by simpa [CandidatePair.isNominated] using h
  rw [CandidatePair.nominate,if_pos hnone]
  rfl

theorem recordBindingResponse_of_has {p : CandidatePair} {transId : TransId}
    (h : p.hasBindingAttempt transId = true) : ∃ p', p.recordBindingResponse transId = .ok p' := by
  have hfind : (p.bindingAttempts.find? (·.transId = transId)).isSome :=
    List.find?_isSome.mpr (List.any_eq_true.mp h)
  obtain ⟨b,hb⟩ := Option.isSome_iff_exists.mp hfind
  rw [CandidatePair.recordBindingResponse,hb]
  exact ⟨_,rfl⟩

section Handling
variable {creds : Role → IceCreds} {role : Role} {agent : IceAgent}

/-- The pairs after a request has been answered for one of them. -/
def IceAgent.pairsAsked (agent : IceAgent) (use : Bool) (i : ℕ) : List CandidatePair :=
  let pairs := if i < agent.candidatePairs.length then agent.candidatePairs else agent.candidatePairs ++ [.new]
  let i := min i agent.candidatePairs.length
  pairs.set i ((pairs.getD i .new).asked (!agent.controlling && use))

/-- A request with USE-CANDIDATE to the controlling agent, and one for no candidate, is discarded. The others are
answered. -/
theorem handlePacket_request [Crates] (hnamed : Named creds) (hagent : Paired creds role agent) (transId : TransId)
    (controlling : Bool) (tieBreaker : UInt64) (prio : UInt32) (use : Bool) (source : SocketAddr)
    (found : Option ℕ) :
    agent.handlePacket ((Message.bindingRequest (username creds role) transId controlling tieBreaker prio
        use).received (creds role).pass) source found =
      if use = true ∧ agent.controlling = true then .ok (agent,none)
      else found.elim (.ok (agent,none)) fun i => .ok ({ agent with candidatePairs := agent.pairsAsked use i },
        some ((Message.reply transId source).wire (creds role).pass)) := by
  have haccepts := accepts_request hnamed hagent transId controlling tieBreaker prio use
  generalize hm : (Message.bindingRequest (username creds role) transId controlling tieBreaker prio
    use).received (creds role).pass = m at haccepts ⊢
  have hbinding : m.method = .binding ∧ m.cls = .request := by
    subst hm
    exact ⟨rfl,rfl⟩
  have hprio : m.attrs.priority = some prio := by
    subst hm
    rfl
  have huse : m.attrs.useCandidate = use := by
    subst hm
    rfl
  have htrans : m.transId = transId := by
    subst hm
    rfl
  have hsplit : m.attrs.splitUsername = some ((creds role).ufrag.toList,(creds role.peer).ufrag.toList) :=
    splitUsername_eq hnamed (by subst hm; rfl)
  have hsome : agent.remoteCredentials.isSome = true := by
    rw [hagent.remoteCredentials]
    rfl
  have hcreds := stunCredentials_reply hagent
  have hreply : datagram (Message.reply transId source) (creds role).pass =
      .ok ((Message.reply transId source).wire (creds role).pass) :=
    datagram_eq (Message.sendable_reply transId source) _
  -- what happens to the pair
  have hpair : ∀ pair : CandidatePair, (if (!agent.controlling && !pair.isNominated && use) = true then
      pair.nominate agent.iceLite else .ok pair) = .ok (pair.asked (!agent.controlling && use)) := by
    intro pair
    rw [hagent.iceLite,CandidatePair.asked]
    cases hn : pair.isNominated <;> cases use <;> cases agent.controlling <;> simp [nominate_eq,hn]
  rw [IceAgent.handlePacket,haccepts,ok_bind,if_neg (by simp),if_pos hbinding,IceAgent.stunServerHandleMessage,
    hprio,hsplit]
  simp only
  rw [if_pos hsome]
  unfold IceAgent.stunServerHandleRequest
  rw [hagent.remoteCredentials]
  simp only [huse,htrans,hcreds,hpair,ok_bind,hreply]
  rw [if_neg (not_not.mpr rfl)]
  cases found with
  | none => rfl
  | some i => rfl

theorem handle_request [Crates] (hnamed : Named creds) (hagent : Paired creds role agent) (transId : TransId)
    (controlling : Bool) (tieBreaker : UInt64) (prio : UInt32) (use : Bool) (source : SocketAddr)
    (found : Option ℕ) :
    ∃ message, message = (Message.bindingRequest (username creds role) transId controlling tieBreaker prio
        use).received (creds role).pass ∧
      (agent.handlePacket message source found = .ok (agent,none) ∨
        (use = true → agent.controlling = false) ∧ ∃ pairs' p,
          Changed agent.candidatePairs pairs' p (p.asked (!agent.controlling && use)) ∧
          agent.handlePacket message source found = .ok ({ agent with candidatePairs := pairs' },
            some ((Message.reply transId source).wire (creds role).pass))) := by
  refine ⟨_,rfl,?_⟩
  rw [handlePacket_request hnamed hagent]
  by_cases hboth : use = true ∧ agent.controlling = true
  · exact .inl (if_pos hboth)
  · rw [if_neg hboth]
    cases found with
    | none => exact .inl rfl
    | some i =>
      refine .inr ⟨fun h => Bool.eq_false_iff.mpr fun hc => hboth ⟨h,hc⟩,?_⟩
      by_cases hi : i < agent.candidatePairs.length
      · refine ⟨_,_,changed_set hi _,?_⟩
        simp only [Option.elim_some,IceAgent.pairsAsked,if_pos hi,Nat.min_eq_left (Nat.le_of_lt hi),
          List.getD_eq_getElem _ _ hi]
      · refine ⟨_,_,changed_append agent.candidatePairs _,?_⟩
        simp [IceAgent.pairsAsked,if_neg hi,Nat.min_eq_right (Nat.not_lt.mp hi)]

/-- A reply is recorded in the first pair that remembers the attempt, if one does. -/
theorem handlePacket_reply [Crates] (hagent : Paired creds role agent) (transId : TransId)
    (mapped source : SocketAddr) (found : Option ℕ) :
    agent.handlePacket ((Message.reply transId mapped).received (creds role.peer).pass) source found =
      (agent.candidatePairs.findIdx? (·.hasBindingAttempt transId)).elim (.ok (agent,none)) fun i =>
        (agent.candidatePairs.getD i .new).recordBindingResponse transId >>= fun pair =>
          .ok ({ agent with candidatePairs := agent.candidatePairs.set i pair },none) := by
  have haccepts := accepts_reply hagent transId mapped
  generalize hm : (Message.reply transId mapped).received (creds role.peer).pass = m at haccepts ⊢
  have hrequest : ¬ (m.method = .binding ∧ m.cls = .request) := by
    subst hm
    exact fun h => nomatch h.2
  have hsuccess : m.method = .binding ∧ m.cls = .success := by
    subst hm
    exact ⟨rfl,rfl⟩
  have hmapped : m.attrs.xorMappedAddress = some mapped := by
    subst hm
    rfl
  have htrans : m.transId = transId := by
    subst hm
    rfl
  rw [IceAgent.handlePacket,haccepts,ok_bind]
  cases hidx : agent.candidatePairs.findIdx? (·.hasBindingAttempt transId) with
  | none =>
    have hany : agent.candidatePairs.any (·.hasBindingAttempt transId) = false := by
      rw [← List.findIdx?_isSome,hidx]
      rfl
    rw [hany]
    rfl
  | some i =>
    have hany : agent.candidatePairs.any (·.hasBindingAttempt transId) = true := by
      rw [← List.findIdx?_isSome,hidx]
      rfl
    rw [hany,if_neg (by simp),if_neg hrequest,if_pos hsuccess,IceAgent.stunClientHandleResponse,htrans,hmapped,hidx]
    simp only [Option.elim_some,bind_bind,ok_bind]

theorem handle_reply [Crates] (hagent : Paired creds role agent) (transId : TransId) (mapped source : SocketAddr)
    (found : Option ℕ) :
    ∃ message, message = (Message.reply transId mapped).received (creds role.peer).pass ∧
      (agent.handlePacket message source found = .ok (agent,none) ∨
        ∃ pairs' p p', Changed agent.candidatePairs pairs' p p' ∧ p.recordBindingResponse transId = .ok p' ∧
          agent.handlePacket message source found = .ok ({ agent with candidatePairs := pairs' },none)) := by
  refine ⟨_,rfl,?_⟩
  rw [handlePacket_reply hagent]
  cases hi : agent.candidatePairs.findIdx? (·.hasBindingAttempt transId) with
  | none => exact .inl rfl
  | some i =>
    obtain ⟨hlt,hhas,-⟩ := List.findIdx?_eq_some_iff_getElem.mp hi
    obtain ⟨p',hp'⟩ := recordBindingResponse_of_has hhas
    refine .inr ⟨_,_,p',changed_set hlt p',hp',?_⟩
    simp only [Option.elim_some,List.getD_eq_getElem _ _ hlt,hp',ok_bind]

theorem evaluateNomination_eq (hagent : Paired creds role agent) (pairIdx : ℕ) :
    agent.evaluateNomination pairIdx = .ok agent ∨
      ∃ pairs' p, Changed agent.candidatePairs pairs' p (p.asked true) ∧
        agent.evaluateNomination pairIdx = .ok { agent with candidatePairs := pairs' } := by
  unfold IceAgent.evaluateNomination
  by_cases hi : pairIdx < agent.candidatePairs.length
  · rw [List.getElem?_eq_getElem hi]
    simp only
    split
    · rename_i h
      have hn : agent.candidatePairs[pairIdx].isNominated = false := by simpa using h.2.1
      refine .inr ⟨_,_,changed_set hi _,?_⟩
      rw [hagent.iceLite,nominate_eq hn,ok_bind,CandidatePair.asked,if_pos (by rw [hn]; rfl)]
    · exact .inl rfl
  · rw [List.getElem?_eq_none (Nat.not_lt.mp hi)]
    exact .inl rfl

end Handling

end Checks
end AnyKvm
