import AnyKvm.Transition
import AnyKvm.TurnData

/-! `webrtc::run` as a client of a TURN server: its requests, the permissions that it notes and the
packets that it sends through the relay. A step takes the task from one `await` or decision to the
next, `tick` lets time pass in between, and the server answers when it likes. -/

namespace AnyKvm
namespace Relay

open Transition
open Turn (IpAddr)

/-- Where `run` is: before `turn_allocate`, after the requests of its two steps, with its outcome, with
the offer handed over, in the loop over `remote_cand_rx.try_recv`, in `turn_create_permission`, at the
refresh check, before and after `turn_refresh`, in the loop over `poll_output`, in the final `select`,
or gone. -/
inductive Point
  | gathering | allocating₁ | allocating₂ | allocated | offered | candidates
  | permission (peerIp : IpAddr) (since : ℕ)
  | refreshCheck | refresh
  | refreshed (sent : Bool)
  | polling | selecting | ended
  deriving DecidableEq, Repr

/-- In the main loop. -/
def Point.Looping : Point → Prop
  | .candidates | .permission _ _ | .refreshCheck | .refresh | .refreshed _ | .polling | .selecting => True
  | _ => False

instance (p : Point) : Decidable p.Looping := by
  cases p <;> unfold Point.Looping <;> infer_instance

/-- The offer with the relay candidate is out, and the session is not over. -/
def Point.Offered (p : Point) : Prop := p = .offered ∨ p.Looping

/-- The state of a session; times are in milliseconds. `turn` tells that `turn_state` and `relay_addr`
are there. The rest is history: when the last Allocate or Refresh request was sent, when the loop last
looked at its refresh timer or was entered, when a permission was asked for, the answers of the server
that may still come in, and when it last granted a permission. -/
structure Session where
  point : Point := .gathering
  now : ℕ := 0
  turn : Bool := false
  turnPerms : List IpAddr := []
  turnRefreshAt : ℕ := 0
  remote : List IpAddr := []
  sentAt : ℕ := 0
  checkedAt : ℕ := 0
  asked : IpAddr → Option ℕ := fun _ => none
  answers : List (IpAddr × Bool) := []
  granted : IpAddr → Option ℕ := fun _ => none

inductive Action
  | tick (ms : ℕ)
  | noTurn
  | allocate₁
  | allocate₂
  | allocate (ok : Bool)
  | offer
  | answer (candidates : List IpAddr)
  | candidate (ip : IpAddr) (sent : Bool)
  | response (ip : IpAddr) (success : Bool)
  | timeout
  | socketError
  | drained
  | checkRefresh
  | sendRefresh (sent : Bool)
  | rearm
  | learn (ip : IpAddr)
  | transmit (relayed : Bool) (destination : IpAddr)
  | polled
  | selected
  | quit
  | serverAnswers (ip : IpAddr) (success : Bool)
  deriving DecidableEq

namespace Session
variable (s : Session)

/-- The wait of `turn_create_permission` is over; its result is always `Ok`. -/
def permitted (ip : IpAddr) : Session :=
  { s with point := .candidates, turnPerms := ip :: s.turnPerms, remote := ip :: s.remote }

/-- The request for a permission has been sent. -/
def ask (ip : IpAddr) : Session :=
  { s with point := .permission ip s.now, asked := Function.update s.asked ip (some s.now) }

@[simp] theorem asked_ask_self (ip : IpAddr) : (s.ask ip).asked ip = some s.now := Function.update_self ..

theorem asked_ask_of_ne {ip ip' : IpAddr} (h : ip' ≠ ip) : (s.ask ip).asked ip' = s.asked ip' :=
  Function.update_of_ne h ..

/-- A trickled candidate: its IP is asked a permission for, unless that has been done, and the
candidate is added. -/
def candidate (ip : IpAddr) (sent : Bool) : Session :=
  if s.turn = true ∧ ip ∉ s.turnPerms then
    if sent then s.ask ip
    else { s with remote := ip :: s.remote }
  else { s with remote := ip :: s.remote }

/-- The wait ends by any answer to a CreatePermission, by an error of the socket or after two seconds. -/
def endWait : Option Session :=
  match s.point with
  | .permission ip _ => some (s.permitted ip)
  | _ => none

/-- The server answers a CreatePermission that it has been sent. -/
def serverAnswers (ip : IpAddr) (success : Bool) : Session :=
  { s with
    answers := (ip,success) :: s.answers,
    granted := if success then Function.update s.granted ip (some s.now) else s.granted }

end Session

def step (s : Session) : Action → Option Session
  | .tick ms => some { s with now := s.now + ms }
  | .noTurn => if s.point = .gathering then some { s with point := .allocated } else none
  | .allocate₁ => if s.point = .gathering then some { s with point := .allocating₁, sentAt := s.now } else none
  | .allocate₂ =>
    if s.point = .allocating₁ then some { s with point := .allocating₂, sentAt := s.now } else none
  | .allocate ok =>
    if s.point = .allocating₂ ∨ s.point = .allocating₁ ∧ ok = false then
      some { s with point := .allocated, turn := ok }
    else none
  | .offer => if s.point = .allocated then some { s with point := .offered } else none
  | .answer candidates =>
    if s.point = .offered then
      some { s with
        point := .candidates, remote := candidates ++ s.remote,
        turnRefreshAt := s.now + 240000, checkedAt := s.now }
    else none
  | .candidate ip sent => if s.point = .candidates then some (s.candidate ip sent) else none
  | .response ip success => if (ip,success) ∈ s.answers then s.endWait else none
  | .timeout => match s.point with
    | .permission _ since => if since + 2000 ≤ s.now then s.endWait else none
    | _ => none
  | .socketError => s.endWait
  | .drained => if s.point = .candidates then some { s with point := .refreshCheck } else none
  | .checkRefresh =>
    if s.point = .refreshCheck then
      some { s with
        point := if s.turn = true ∧ s.turnRefreshAt ≤ s.now then .refresh else .polling, checkedAt := s.now }
    else none
  | .sendRefresh sent =>
    if s.point = .refresh then
      some { s with point := .refreshed sent, sentAt := if sent then s.now else s.sentAt }
    else none
  | .rearm => match s.point with
    | .refreshed _ =>
      some { s with point := .polling, turnRefreshAt := s.now + 240000 }
    | _ => none
  | .learn ip => if s.point = .polling ∨ s.point = .selecting then some { s with remote := ip :: s.remote } else none
  | .transmit _ destination => if s.point = .polling ∧ destination ∈ s.remote then some s else none
  | .polled => if s.point = .polling then some { s with point := .selecting } else none
  | .selected => if s.point = .selecting then some { s with point := .candidates } else none
  | .quit => if s.point = .ended then none else some { s with point := .ended }
  | .serverAnswers ip success => if (s.asked ip).isSome then some (s.serverAnswers ip success) else none

abbrev RelayRun : List Action → Session → Prop := Run step {}

end Relay
end AnyKvm
