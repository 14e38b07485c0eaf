import AnyKvm.SignalTally
import AnyKvm.SignalTraffic

/-! The agent, the signalling server and the browsers together, with the messages in flight.
The agent runs one session after another, each of which may dial the server several times; a page
may open several connections. An SDP is told by whose offer it is or answers. -/
namespace AnyKvm
namespace Rendezvous

open Transition

/-- An answer: the session whose offer it answers, and the page that made it. -/
structure Answer where
  offer : ℕ
  page : ℕ
  deriving DecidableEq, Repr

inductive Wire
  | offer (session : ℕ)
  | answer (answer : Answer)
  | candidate
  deriving DecidableEq, Repr

/-- WebSocket connections: the attempts of a session of the agent, and those of browsers. -/
inductive Conn
  | device (session attempt : ℕ)
  | client (id : ℕ)
  deriving DecidableEq, Repr

def Wire.type : Wire → String
  | .offer _ => "offer"
  | .answer _ => "answer"
  | .candidate => "candidate"

def unmarshal (m : Wire) : Option SignalServer.SignalMsg := some ⟨m.type⟩

def fromStr (m : Wire) : Option (Agent.SignalMsg Answer Unit) :=
  match m with
  | .offer _ => some ⟨m.type,none,none⟩
  | .answer answer => some ⟨m.type,some answer,none⟩
  | .candidate => some ⟨m.type,none,some ()⟩

/-- The configured room, what the browser connections ask for and belong to, and which answers
`accept_answer` of a session accepts. -/
structure Deployment where
  room : String
  clientRoom : ℕ → String
  page : ℕ → ℕ
  accepts : ℕ → Answer → Bool

namespace Deployment

def query (d : Deployment) : Conn → SignalServer.Query
  | .device _ _ => ⟨d.room,"device",d.room⟩
  | .client id => ⟨d.clientRoom id,"client",""⟩

end Deployment

/-- `dialled` counts the connections that a session has opened or tried to; `received` are the offers
that a page has got. -/
structure World where
  session : ℕ
  dialled : ℕ → ℕ
  agent : Agent.Session Answer Unit
  server : SignalServer.State Conn Wire
  up : Conn → List Wire
  down : Conn → List Wire
  received : ℕ → List ℕ

def World.start : World where
  session := 0
  dialled := fun _ => 0
  agent := .start false false
  server := .start
  up := fun _ => []
  down := fun _ => []
  received := fun _ => []

inductive Act
  | server (a : SignalServer.Action Conn Wire)
  | agent (a : Agent.Action Wire)
  | newSession
  | browserRecv (id : ℕ)
  | browserSend (id : ℕ) (m : Wire)
  deriving DecidableEq

def Act.server? : Act → Option (SignalServer.Action Conn Wire)
  | .server a => some a
  | _ => none

namespace World
variable (s : World)

def conn : Conn := .device s.session (s.dialled s.session - 1)

def dial : World :=
  { s with dialled := Function.update s.dialled s.session (s.dialled s.session + 1) }

def push (c : Conn) (m : Wire) : World := { s with up := Function.update s.up c (s.up c ++ [m]) }

/-- What a server step does to the messages in flight: the read loop takes what has arrived, and the
write pump hands on the oldest message of its queue. A device connection can be accepted once it has
been dialled. -/
def serverTransport : SignalServer.Action Conn Wire → Option World
  | .connect (.device session attempt) => if attempt < s.dialled session then some s else none
  | .recv c m =>
    if (s.up c).head? = some m then
      some { s with up := Function.update s.up c (s.up c).tail }
    else none
  | .pump c => (s.server.send c).queue.items.head?.map fun m =>
      { s with down := Function.update s.down c (s.down c ++ [m]) }
  | _ => some s

/-- What a step of the agent does to the messages in flight. A connection is up only once the server
has accepted it. -/
def agentTransport : Agent.Action Wire → Option World
  | .connect ok => if ok = true → (s.server.handler s.conn).pc ≠ .absent then some s else none
  | .sendOffer ok => some (if ok then s.push s.conn (.offer s.session) else s)
  | .read (.text m) =>
    if (s.down s.conn).head? = some m then
      some { s with down := Function.update s.down s.conn (s.down s.conn).tail }
    else none
  | .recvOffer => some (if s.agent.offered then s.dial else s)
  | .retry => some s.dial
  | _ => some s

/-- The next turn of the loop of `main`, once both tasks are gone. -/
def newSession : Option World :=
  if s.agent.webrtc = .ended ∧ s.agent.signal.isEnded = true then
    some { s with
      session := s.session + 1
      agent := .start s.agent.peerConnected s.agent.keyframe }
  else none

end World

section Machine
variable (d : Deployment)

/-- `ws.onmessage`: of the messages, a page keeps the offers. -/
def World.browserRecv (s : World) (id : ℕ) : Option World :=
  match s.down (.client id) with
  | [] => none
  | m :: rest =>
    let s := { s with down := Function.update s.down (.client id) rest }
    match m with
    | .offer k =>
      some { s with received := Function.update s.received (d.page id) (k :: s.received (d.page id)) }
    | _ => some s

/-- `wsSend`: a page sends candidates, and answers to offers it has got, over any connection it has
open by then. -/
def World.browserSend (s : World) (id : ℕ) : Wire → Option World
  | .offer _ => none
  | .answer answer =>
    if answer.page = d.page id ∧ answer.offer ∈ s.received answer.page then
      some (s.push (.client id) (.answer answer))
    else none
  | .candidate => some (s.push (.client id) .candidate)

def step (s : World) : Act → Option World
  | .server a => (s.serverTransport a).bind fun t =>
      (SignalServer.step d.query unmarshal s.server a).map fun server => { t with server := server }
  | .agent a => (s.agentTransport a).bind fun t =>
      (Agent.step fromStr (d.accepts s.session) s.agent a).map fun agent => { t with agent := agent }
  | .newSession => s.newSession
  | .browserRecv id => s.browserRecv d id
  | .browserSend id m => s.browserSend d id m

abbrev WorldRun : List Act → World → Prop := Run (step d) World.start

section Step
variable {d} {s s' t : World} {as : List Act} {a : Act}

structure ServerMoves (s t : World) (a : SignalServer.Action Conn Wire) : Prop where
  session : t.session = s.session
  agent : t.agent = s.agent
  received : t.received = s.received
  up : ∀ c, ∀ m ∈ t.up c, m ∈ s.up c
  down : ∀ c, ∀ m ∈ t.down c, m ∈ s.down c ∨ m ∈ (s.server.send c).queue.items
  read : ∀ c m, a = .recv c m → m ∈ s.up c

structure AgentMoves (s t : World) (a : Agent.Action Wire) : Prop where
  session : t.session = s.session
  server : t.server = s.server
  received : t.received = s.received
  up : ∀ c, ∀ m ∈ t.up c, m ∈ s.up c ∨ a = .sendOffer true ∧ c = s.conn ∧ m = .offer s.session
  down : ∀ c, ∀ m ∈ t.down c, m ∈ s.down c
  read : ∀ m, a = .read (.text m) → m ∈ s.down s.conn

theorem mem_update_tail {f : Conn → List Wire} {c c' : Conn} {m : Wire}
    (h : m ∈ Function.update f c (f c).tail c') : m ∈ f c' := by
  by_cases hc : c' = c
  · subst hc
    rw [Function.update_self] at h
    exact List.mem_of_mem_tail h
  · rwa [Function.update_of_ne hc] at h

theorem mem_update_snoc {f : Conn → List Wire} {c c' : Conn} {m m' : Wire}
    (h : m ∈ Function.update f c (f c ++ [m']) c') : m ∈ f c' ∨ c' = c ∧ m = m' := by
  by_cases hc : c' = c
  · subst hc
    rw [Function.update_self,List.mem_append,List.mem_singleton] at h
    exact h.imp_right fun hm => ⟨rfl,hm⟩
  · rw [Function.update_of_ne hc] at h
    exact .inl h

theorem mem_update_cons {f : ℕ → List ℕ} {page page' k j : ℕ} :
    j ∈ Function.update f page (k :: f page) page' ↔ j ∈ f page' ∨ page' = page ∧ j = k := by
  by_cases hpage : page' = page
  · subst hpage
    simp [or_comm]
  · simp [hpage]

theorem mem_push {c c' : Conn} {m m' : Wire} (h : m ∈ (s.push c m').up c') :
    m ∈ s.up c' ∨ c' = c ∧ m = m' :=
  mem_update_snoc h

theorem serverMoves {a : SignalServer.Action Conn Wire} (h : s.serverTransport a = some t) :
    ServerMoves s t a := by
  have still : (∀ c m, a ≠ .recv c m) → ServerMoves s s a := fun hne =>
    ⟨rfl,rfl,rfl,fun _ _ hm => hm,fun _ _ hm => .inl hm,fun c m ha => absurd ha (hne c m)⟩
  unfold World.serverTransport at h
  split at h
  · split at h
    · cases h
      exact still (by simp)
    · cases h
  · split at h
    · rename_i c m hm
      cases h
      refine ⟨rfl,rfl,rfl,fun _ _ => mem_update_tail,fun _ _ hm => .inl hm,?_⟩
      rintro c' m' ha
      cases ha
      exact List.mem_of_mem_head? hm
    · cases h
  · rename_i c
    obtain ⟨m,hm,ht⟩ := Option.map_eq_some_iff.mp h
    subst ht
    refine ⟨rfl,rfl,rfl,fun _ _ hm => hm,fun c' m' hm' => ?_,fun c' m' ha => by cases ha⟩
    rcases mem_update_snoc hm' with hm' | ⟨rfl,rfl⟩
    · exact .inl hm'
    · exact .inr (List.mem_of_mem_head? hm)
  · rename_i hrecv _
    cases h
    exact still hrecv

theorem agentMoves {a : Agent.Action Wire} (h : s.agentTransport a = some t) : AgentMoves s t a := by
  have still : ∀ s' : World, s'.session = s.session → s'.server = s.server → s'.received = s.received →
      s'.up = s.up → s'.down = s.down → (∀ m, a ≠ .read (.text m)) → AgentMoves s s' a := by
    intro s' hsession hserver hreceived hup hdown hne
    exact ⟨hsession,hserver,hreceived,fun c m hm => .inl (hup ▸ hm),fun c m hm => hdown ▸ hm,
      fun m ha => absurd ha (hne m)⟩
  unfold World.agentTransport at h
  split at h
  · split at h
    · cases h
      exact still s rfl rfl rfl rfl rfl (by simp)
    · cases h
  · rename_i ok
    cases h
    cases ok with
    | false => exact still s rfl rfl rfl rfl rfl (by simp)
    | true =>
      exact ⟨rfl,rfl,rfl,fun _ _ hm => (mem_update_snoc hm).imp_right fun h => ⟨rfl,h⟩,fun _ _ hm => hm,
        fun m ha => by cases ha⟩
  · split at h
    · rename_i m hm
      cases h
      refine ⟨rfl,rfl,rfl,fun _ _ hm => .inl hm,fun _ _ => mem_update_tail,?_⟩
      rintro m' ha
      cases ha
      exact List.mem_of_mem_head? hm
    · cases h
  · cases h
    split <;> exact still _ rfl rfl rfl rfl rfl (by simp)
  · cases h
    exact still _ rfl rfl rfl rfl rfl (by simp)
  · rename_i hread _ _
    cases h
    exact still s rfl rfl rfl rfl rfl hread

theorem step_server {a : SignalServer.Action Conn Wire} (h : step d s (.server a) = some s') :
    ServerMoves s s' a ∧ SignalServer.step d.query unmarshal s.server a = some s'.server := by
  obtain ⟨t,ht,hs⟩ := Option.bind_eq_some_iff.mp h
  obtain ⟨server,hserver,rfl⟩ := Option.map_eq_some_iff.mp hs
  have hmoves := serverMoves ht
  exact ⟨⟨hmoves.session,hmoves.agent,hmoves.received,hmoves.up,hmoves.down,hmoves.read⟩,hserver⟩

theorem step_agent {a : Agent.Action Wire} (h : step d s (.agent a) = some s') :
    AgentMoves s s' a ∧ Agent.step fromStr (d.accepts s.session) s.agent a = some s'.agent := by
  obtain ⟨t,ht,hs⟩ := Option.bind_eq_some_iff.mp h
  obtain ⟨agent,hagent,rfl⟩ := Option.map_eq_some_iff.mp hs
  have hmoves := agentMoves ht
  exact ⟨⟨hmoves.session,hmoves.server,hmoves.received,hmoves.up,hmoves.down,hmoves.read⟩,hagent⟩

theorem step_newSession (h : step d s .newSession = some s') :
    s' = { s with
      session := s.session + 1
      agent := .start s.agent.peerConnected s.agent.keyframe } := by
  change s.newSession = some s' at h
  unfold World.newSession at h
  split at h
  · exact (Option.some.inj h).symm
  · cases h

theorem step_browserRecv {id : ℕ} (h : step d s (.browserRecv id) = some s') :
    ∃ m rest, s.down (.client id) = m :: rest ∧
      s'.session = s.session ∧ s'.agent = s.agent ∧ s'.server = s.server ∧ s'.up = s.up ∧
      (∀ c, ∀ m ∈ s'.down c, m ∈ s.down c) ∧
      (∀ page k, k ∈ s'.received page → k ∈ s.received page ∨ page = d.page id ∧ m = .offer k) ∧
      ∀ page k, k ∈ s.received page → k ∈ s'.received page := by
  change s.browserRecv d id = some s' at h
  unfold World.browserRecv at h
  split at h
  · cases h
  · rename_i m rest hdown
    have htail : rest = (s.down (.client id)).tail := by rw [hdown]; rfl
    refine ⟨m,rest,hdown,?_⟩
    simp only at h
    split at h
    · rename_i k
      cases h
      refine ⟨rfl,rfl,rfl,rfl,fun c m hm => mem_update_tail (htail ▸ hm),fun page j hj => ?_,
        fun page j hj => mem_update_cons.mpr (.inl hj)⟩
      exact (mem_update_cons.mp hj).imp_right fun hj => ⟨hj.1,by rw [hj.2]⟩
    · cases h
      exact ⟨rfl,rfl,rfl,rfl,fun c m hm => mem_update_tail (htail ▸ hm),fun _ _ hj => .inl hj,
        fun _ _ hj => hj⟩

theorem step_browserSend {id : ℕ} {m : Wire} (h : step d s (.browserSend id m) = some s') :
    s' = s.push (.client id) m ∧ (∀ k, m ≠ .offer k) ∧
      ∀ answer, m = .answer answer → answer.offer ∈ s.received answer.page := by
  change s.browserSend d id m = some s' at h
  cases m with
  | offer k => cases h
  | candidate =>
    cases h
    exact ⟨rfl,by simp,by simp⟩
  | answer answer =>
    unfold World.browserSend at h
    simp only at h
    split at h
    · rename_i hc
      cases h
      exact ⟨rfl,by simp,fun answer' ha => by cases ha; exact hc.2⟩
    · cases h

theorem server_of_step (h : step d s a = some s') (hne : a.server? = none) : s'.server = s.server := by
  cases a with
  | server a => cases hne
  | agent a => exact (step_agent h).1.server
  | newSession => rw [step_newSession h]
  | browserRecv id =>
    obtain ⟨_,_,_,_,_,hsame,_⟩ := step_browserRecv h
    exact hsame
  | browserSend id m =>
    rw [(step_browserSend h).1]
    rfl

theorem server_run (h : WorldRun d as s) :
    SignalServer.ServerRun d.query unmarshal (as.filterMap Act.server?) s.server := by
  induction h with
  | init => exact .init
  | @next as s s' a hrun hs ih =>
    rcases ha : a.server? with - | b
    · rw [List.filterMap_cons_none ha,server_of_step hs ha]
      exact ih
    · cases a with
      | server a =>
        cases ha
        exact ih.next (step_server hs).2
      | _ => cases ha

theorem mem_server {b : SignalServer.Action Conn Wire} :
    b ∈ as.filterMap Act.server? ↔ .server b ∈ as := by
  rw [List.mem_filterMap]
  constructor
  · rintro ⟨a,ha,hb⟩
    cases a with
    | server a =>
      cases hb
      exact ha
    | _ => cases hb
  · intro hb
    exact ⟨_,hb,rfl⟩

theorem agent_run (h : WorldRun d as s) : ∃ peerConnected keyframe bs,
    Run (Agent.step fromStr (d.accepts s.session)) (.start peerConnected keyframe) bs s.agent := by
  refine h.invariant (P := fun _ s => ∃ peerConnected keyframe bs,
    Run (Agent.step fromStr (d.accepts s.session)) (.start peerConnected keyframe) bs s.agent) ?_ ?_
  · exact ⟨false,false,[],.init⟩
  · intro as s a s' _ hrun hs
    obtain ⟨peerConnected,keyframe,bs,hrun⟩ := hrun
    have same : s'.session = s.session → s'.agent = s.agent → ∃ peerConnected keyframe bs,
        Run (Agent.step fromStr (d.accepts s'.session)) (.start peerConnected keyframe) bs s'.agent :=
      fun hsession hagent => ⟨peerConnected,keyframe,bs,by rw [hsession,hagent]; exact hrun⟩
    cases a with
    | server a =>
      obtain ⟨hmoves,_⟩ := step_server hs
      exact same hmoves.session hmoves.agent
    | agent a =>
      obtain ⟨hmoves,hagent⟩ := step_agent hs
      rw [hmoves.session]
      exact ⟨peerConnected,keyframe,a :: bs,hrun.next hagent⟩
    | newSession =>
      rw [step_newSession hs]
      exact ⟨_,_,[],.init⟩
    | browserRecv id =>
      obtain ⟨_,_,_,hsession,hagent,_⟩ := step_browserRecv hs
      exact same hsession hagent
    | browserSend id m =>
      rw [(step_browserSend hs).1]
      exact ⟨peerConnected,keyframe,bs,hrun⟩

end Step

end Machine

/-- A room where every page stays on one connection. -/
def home : Deployment where
  room := "kvm-room-1"
  clientRoom _ := "kvm-room-1"
  page id := id
  accepts _ _ := true

/-- A session gathers, dials the server and sends its offer. -/
def offering (k : ℕ) : List Act :=
  [.agent (.gather true),.agent .recvOffer,.server (.connect (.device k 0)),
    .server (.getOrCreate (.device k 0)),.server (.set (.device k 0)),
    .server (.setName (.device k 0) 1),.server (.spawnPump (.device k 0)),.agent (.connect true),
    .agent (.sendOffer true)]

/-- A page connects, is sent the cached offer and answers it. -/
def visit (id k : ℕ) : List Act :=
  [.server (.connect (.client id)),.server (.getOrCreate (.client id)),.server (.set (.client id)),
    .server (.spawnPump (.client id)),.server (.readCache (.client id)),
    .server (.replayOffer (.client id)),.server (.pump (.client id)),.browserRecv id,
    .browserSend id (.answer ⟨k,id⟩)]

/-- The answer of a page goes through the server to a session, which queues it. -/
def answering (id k session : ℕ) : List Act :=
  [.server (.recv (.client id) (.answer ⟨k,id⟩)),.server (.pump (.device session 0)),
    .agent (.read (.text (.answer ⟨k,id⟩))),.agent .sent]

end Rendezvous
end AnyKvm
