import Mathlib.Algebra.Ring.Nat
import AnyKvm.TurnData

/-! `candidate.rs` and `agent.rs` of str0m: the addresses that a candidate may have, and the local
candidates of an agent before there are remote ones. -/
namespace AnyKvm
namespace Turn

def IpAddr.isV6 : IpAddr → Bool
  | .v4 _ => false
  | .v6 _ => true

def IpAddr.isLoopback : IpAddr → Bool
  | .v4 bits => bits >>> 24 = 127
  | .v6 bits => bits = 1

def IpAddr.isUnspecified : IpAddr → Bool
  | .v4 bits => bits = 0
  | .v6 bits => bits = 0

/-- 169.254.0.0/16 and fe80::/10. -/
def IpAddr.isLinkLocal : IpAddr → Bool
  | .v4 bits => bits >>> 16 = 0xA9FE
  | .v6 bits => bits >>> 118 = 0x3FA

def IpAddr.isMulticast : IpAddr → Bool
  | .v4 bits => bits >>> 28 = 0xE
  | .v6 bits => bits >>> 120 = 0xFF

def IpAddr.isBroadcast : IpAddr → Bool
  | .v4 bits => bits = 0xFFFFFFFF
  | .v6 _ => false

end Turn

namespace Ice

open Turn Outcome

def isValidIp (ip : IpAddr) : Bool :=
  match ip with
  | .v4 _ => !ip.isLinkLocal && !ip.isBroadcast && !ip.isMulticast && !ip.isUnspecified
  | .v6 _ => !ip.isMulticast && !ip.isUnspecified

/-- `BadCandidate`, of which there is one text: `invalid ip ..`. -/
inductive IceError
  | invalidIp (ip : IpAddr)
  deriving DecidableEq, Repr

inductive CandidateKind
  | host
  | peerReflexive
  | serverReflexive
  | relayed
  deriving DecidableEq, Repr

/-- A local candidate; all of them are for UDP and for component 1. -/
structure Candidate where
  addr : SocketAddr
  base : SocketAddr
  kind : CandidateKind
  localPreference : Option ℕ
  discarded : Bool
  deriving DecidableEq, Repr

namespace Candidate

/-- What the three constructors share. -/
def checked (kind : CandidateKind) (addr base : SocketAddr) : Outcome IceError Candidate :=
  if isValidIp addr.ip = false then .err (.invalidIp addr.ip)
  else .ok ⟨addr,base,kind,none,false⟩

def host (addr : SocketAddr) : Outcome IceError Candidate := checked .host addr addr

def serverReflexive (addr base : SocketAddr) : Outcome IceError Candidate :=
  checked .serverReflexive addr base

def relayed (addr : SocketAddr) : Outcome IceError Candidate := checked .relayed addr addr

end Candidate

def CandidateKind.typePreference : CandidateKind → ℕ
  | .host => 126
  | .peerReflexive => 110
  | .serverReflexive => 100
  | .relayed => 2

/-- The priority, which is asserted to be positive and below 2^31. -/
def Candidate.prio {ε : Type} (c : Candidate) : Outcome ε ℕ :=
  let localPreference := c.localPreference.getD (if c.addr.ip.isV6 = true then 65535 else 65534)
  let prio := c.kind.typePreference <<< 24 ||| localPreference <<< 8 ||| (256 - 1)
  if 1 ≤ prio ∧ prio < 2 ^ 31 then .ok prio else .panicked

/-- Where the local preferences of a kind of candidates start. -/
def counterStart (c : Candidate) : ℕ :=
  let x := match c.kind with
    | .host => 65535
    | .peerReflexive => 49151
    | .serverReflexive => 32767
    | .relayed => 16383
  x - if c.addr.ip.isV6 = true then 0 else 1

def sameKind (cands : List Candidate) (c : Candidate) : ℕ :=
  ((cands.filter fun v => v.kind = c.kind).filter fun v => v.addr.ip.isV6 = c.addr.ip.isV6).length

def redundant (c v : Candidate) : Bool := v.addr = c.addr ∧ v.base = c.base

def discardFirst (p : Candidate → Bool) : List Candidate → List Candidate
  | [] => []
  | v :: cands =>
    if p v = true then { v with discarded := true } :: cands else v :: discardFirst p cands

/-- The end of `add_local_candidate`: of two redundant candidates, one is used. -/
def insertCandidate {ε : Type} (cands : List Candidate) (c : Candidate) : Outcome ε (List Candidate) :=
  match cands.find? (redundant c) with
  | none => .ok (cands ++ [c])
  | some other => do
    if (← c.prio) < (← other.prio) then .ok cands
    else .ok (discardFirst (redundant c) cands ++ [c])

/-- The subtraction of the local preference is checked, as in a development build. In a release
build it wraps around, and the assertion on the priority fails when the offer is written. -/
def addLocalCandidate {ε : Type} (cands : List Candidate) (c : Candidate) :
    Outcome ε (List Candidate) :=
  if counterStart c < sameKind cands c * 2 then .panicked
  else insertCandidate cands
    { c with localPreference := some (counterStart c - sameKind cands c * 2) }

/-- A local preference has been set on every candidate. -/
def Prioritised (cands : List Candidate) : Prop :=
  ∀ v ∈ cands, ∃ pref, v.localPreference = some pref ∧ pref < 2 ^ 16

/-- The agent has a host candidate at an address and uses it. -/
def Registered (cands : List Candidate) (addr : SocketAddr) : Prop :=
  ∃ v ∈ cands, v.kind = .host ∧ v.addr = addr ∧ v.base = addr ∧ v.discarded = false

namespace Candidate

theorem checked_of_valid {kind : CandidateKind} {addr base : SocketAddr} (h : isValidIp addr.ip = true) :
    checked kind addr base = .ok ⟨addr,base,kind,none,false⟩ := by
  rw [checked,h]
  rfl

theorem checked_of_invalid {kind : CandidateKind} {addr base : SocketAddr}
    (h : isValidIp addr.ip = false) : checked kind addr base = .err (.invalidIp addr.ip) :=
  if_pos h

end Candidate

theorem counterStart_lt (c : Candidate) : counterStart c < 2 ^ 16 := by
  unfold counterStart
  cases c.kind <;> simp only <;> split <;> omega

theorem prio_eq {ε : Type} {c : Candidate} {pref : ℕ} (hc : c.localPreference = some pref)
    (hpref : pref < 2 ^ 16) : (c.prio : Outcome ε ℕ) =
      .ok (2 ^ 24 * c.kind.typePreference + (2 ^ 8 * pref + 255)) := by
  have hlow : pref <<< 8 ||| 255 = 2 ^ 8 * pref + 255 := by
    rw [Nat.shiftLeft_eq,Nat.mul_comm]
    exact (Nat.two_pow_add_eq_or_of_lt (by decide : 255 < 2 ^ 8) pref).symm
  have hprio : c.kind.typePreference <<< 24 ||| pref <<< 8 ||| 255 =
      2 ^ 24 * c.kind.typePreference + (2 ^ 8 * pref + 255) := by
    rw [Nat.or_assoc,hlow,Nat.shiftLeft_eq,Nat.mul_comm]
    exact (Nat.two_pow_add_eq_or_of_lt (by omega) _).symm
  have htype : c.kind.typePreference ≤ 126 := by
    cases c.kind <;> decide
  unfold Candidate.prio
  simp only [hc,Option.getD_some,Nat.add_one_sub_one]
  rw [hprio,if_pos ⟨by omega,by omega⟩]

theorem map_kind_discardFirst (p : Candidate → Bool) (cands : List Candidate) :
    (discardFirst p cands).map (·.kind) = cands.map (·.kind) := by
  induction cands with
  | nil => rfl
  | cons v cands ih =>
    rw [discardFirst]
    split
    · rfl
    · rw [List.map_cons,List.map_cons,ih]

theorem prioritised_discardFirst {p : Candidate → Bool} {cands : List Candidate}
    (h : Prioritised cands) : Prioritised (discardFirst p cands) := by
  induction cands with
  | nil => exact h
  | cons v cands ih =>
    have hv := h v (List.mem_cons_self ..)
    have hrest : Prioritised cands := fun w hw => h w (List.mem_cons_of_mem v hw)
    rw [discardFirst]
    split
    · intro w hw
      rcases List.mem_cons.mp hw with rfl | hw
      · exact hv
      · exact hrest w hw
    · intro w hw
      rcases List.mem_cons.mp hw with rfl | hw
      · exact hv
      · exact ih hrest w hw

theorem mem_discardFirst {p : Candidate → Bool} {cands : List Candidate} {v : Candidate}
    (hv : v ∈ cands) (hfound : cands.find? p ≠ some v) : v ∈ discardFirst p cands := by
  induction cands with
  | nil => exact hv
  | cons w cands ih =>
    rw [discardFirst]
    cases hp : p w with
    | true =>
      rw [List.find?_cons_of_pos hp] at hfound
      rw [if_pos rfl]
      rcases List.mem_cons.mp hv with rfl | hv
      · exact absurd rfl hfound
      · exact List.mem_cons_of_mem _ hv
    | false =>
      rw [List.find?_cons_of_neg (by simp [hp])] at hfound
      rw [if_neg Bool.false_ne_true]
      rcases List.mem_cons.mp hv with rfl | hv
      · exact List.mem_cons_self ..
      · exact List.mem_cons_of_mem _ (ih hv hfound)

theorem registered_append {cands : List Candidate} {addr : SocketAddr} (h : Registered cands addr)
    (more : List Candidate) : Registered (cands ++ more) addr := by
  obtain ⟨v,hv,hreg⟩ := h
  exact ⟨v,List.mem_append_left more hv,hreg⟩

theorem prioritised_snoc {cands : List Candidate} {c : Candidate} {pref : ℕ} (h : Prioritised cands)
    (hc : c.localPreference = some pref) (hpref : pref < 2 ^ 16) : Prioritised (cands ++ [c]) := by
  intro v hv
  rcases List.mem_append.mp hv with hv | hv
  · exact h v hv
  · rw [List.mem_singleton.mp hv]
    exact ⟨pref,hc,hpref⟩

structure Added (cands : List Candidate) (c : Candidate) (cands' : List Candidate) : Prop where
  prioritised : Prioritised cands'
  kinds : cands'.map (·.kind) = cands.map (·.kind) ∨
    cands'.map (·.kind) = cands.map (·.kind) ++ [c.kind]
  registered : ∀ addr, Registered cands addr → Registered cands' addr

theorem insertCandidate_added {ε : Type} {cands : List Candidate} {c : Candidate} {pref : ℕ}
    (hcands : Prioritised cands) (hkind : c.kind.typePreference < 126)
    (hc : c.localPreference = some pref) (hpref : pref < 2 ^ 16) :
    ∃ cands', (insertCandidate cands c : Outcome ε _) = .ok cands' ∧ Added cands c cands' := by
  unfold insertCandidate
  cases hfind : cands.find? (redundant c) with
  | none =>
    refine ⟨_,rfl,prioritised_snoc hcands hc hpref,.inr ?_,fun addr h => registered_append h _⟩
    rw [List.map_append]
    rfl
  | some other =>
    obtain ⟨pref',hother,hpref'⟩ := hcands other (List.mem_of_find?_eq_some hfind)
    simp only [prio_eq hc hpref,prio_eq hother hpref',ok_bind]
    split
    · exact ⟨_,rfl,hcands,.inl rfl,fun addr h => h⟩
    · rename_i hprio
      refine ⟨_,rfl,prioritised_snoc (prioritised_discardFirst hcands) hc hpref,.inr ?_,?_⟩
      · rw [List.map_append,map_kind_discardFirst]
        rfl
      · rintro addr ⟨v,hv,hhost,hreg⟩
        have hother : ¬ other.kind = .host := by
          intro h
          have htype : other.kind.typePreference = 126 := by
            rw [h]
            rfl
          omega
        refine registered_append ⟨v,mem_discardFirst hv ?_,hhost,hreg⟩ _
        intro hv'
        rw [hfind] at hv'
        rw [Option.some.inj hv'] at hother
        exact hother hhost

theorem addLocalCandidate_added {ε : Type} {cands : List Candidate} {c : Candidate}
    (hcands : Prioritised cands) (hkind : c.kind.typePreference < 126)
    (hfits : sameKind cands c * 2 ≤ counterStart c) :
    ∃ cands', (addLocalCandidate cands c : Outcome ε _) = .ok cands' ∧ Added cands c cands' := by
  rw [addLocalCandidate,if_neg (Nat.not_lt.mpr hfits)]
  obtain ⟨cands',h,hadd⟩ := insertCandidate_added (ε := ε)
    (c := { c with localPreference := some (counterStart c - sameKind cands c * 2) }) hcands hkind rfl
    (Nat.lt_of_le_of_lt (Nat.sub_le ..) (counterStart_lt c))
  exact ⟨cands',h,hadd.prioritised,hadd.kinds,hadd.registered⟩

def hostAt (addr : SocketAddr) (pref : ℕ) : Candidate := ⟨addr,addr,.host,some pref,false⟩

/-- Host candidates at different addresses of IPv4 all get in, as long as there are preferences left. -/
theorem addLocalCandidate_host {ε : Type} {cands : List Candidate} {addr : SocketAddr}
    (haddr : addr.ip.isV6 = false)
    (hhosts : ∀ v ∈ cands, v.kind = .host ∧ v.addr.ip.isV6 = false ∧ v.addr ≠ addr) :
    (addLocalCandidate cands ⟨addr,addr,.host,none,false⟩ : Outcome ε _) =
      if 65534 < cands.length * 2 then .panicked
      else .ok (cands ++ [hostAt addr (65534 - cands.length * 2)]) := by
  have hstart : counterStart ⟨addr,addr,.host,none,false⟩ = 65534 := by
    simp [counterStart,haddr]
  have hsame : sameKind cands ⟨addr,addr,.host,none,false⟩ = cands.length := by
    unfold sameKind
    rw [List.filter_eq_self.mpr,List.filter_eq_self.mpr]
    · intro v hv
      exact decide_eq_true (hhosts v hv).1
    · intro v hv
      exact decide_eq_true ((hhosts v (List.mem_filter.mp hv).1).2.1.trans haddr.symm)
  have hfind : cands.find? (redundant (hostAt addr (65534 - cands.length * 2))) = none := by
    rw [List.find?_eq_none]
    intro v hv hred
    exact (hhosts v hv).2.2 (of_decide_eq_true hred).1
  unfold addLocalCandidate insertCandidate
  rw [hsame,hstart]
  change (if _ then _ else match cands.find? (redundant (hostAt addr (65534 - cands.length * 2))) with
    | none => _
    | some _ => _) = _
  rw [hfind]
  rfl

end Ice
end AnyKvm
