import AnyKvm.RelaySession

/-! Whether packets that go through the relay are covered by a permission of the TURN server.
A permission is asked for once, when a candidate of its IP is trickled; the outcome of the wait is
not looked at, and neither is the set of noted permissions when a packet is sent. -/

namespace AnyKvm
namespace Relay

open Transition
open Turn (IpAddr)

/-- The server has granted the permission within the last 300 s. -/
def Session.Live (s : Session) (ip : IpAddr) : Prop := ∃ t, s.granted ip = some t ∧ s.now ≤ t + 300000

/-- A packet that has just been wrapped for the relay is covered, and permissions are noted only once
they have been granted. -/
structure PermissionsLive (as : List Action) (s : Session) : Prop where
  covered : ∀ ip as', as = .transmit true ip :: as' → s.turn = true → s.Live ip
  noted : ∀ ip ∈ s.turnPerms, s.granted ip ≠ none

/-- The IP that a permission has been asked for, and that the answer is awaited for. -/
def Point.awaited : Point → Option IpAddr
  | .permission ip _ => some ip
  | _ => none

/-- Each wait for a permission ends by the success answer to its own request. Packets go through the relay only
to IPs of trickled candidates, at most `age` milliseconds after the request for their permission. -/
def Answered (age : ℕ) (s : Session) : Action → Prop
  | .response ip success => success = true ∧ s.point.awaited = some ip
  | .timeout | .socketError => False
  | .transmit true ip => s.turn = true → ∃ t ∈ s.asked ip, s.now ≤ t + age
  | _ => True

instance (age : ℕ) (s : Session) : DecidablePred (Answered age s)
  | .response ip success => inferInstanceAs (Decidable (success = true ∧ s.point.awaited = some ip))
  | .timeout | .socketError => inferInstanceAs (Decidable False)
  | .transmit true ip => inferInstanceAs (Decidable (s.turn = true → ∃ t ∈ s.asked ip, s.now ≤ t + age))
  | .transmit false _ | .tick _ | .noTurn | .allocate₁ | .allocate₂ | .allocate _ | .offer | .answer _
  | .candidate _ _ | .drained | .checkRefresh | .sendRefresh _ | .rearm | .learn _ | .polled | .selected | .quit
  | .serverAnswers _ _ => inferInstanceAs (Decidable True)

variable {as : List Action} {s s' : Session} {a : Action} {age : ℕ}

theorem endWait_eq_some : s.endWait = some s' ↔
    ∃ ip since, s.point = .permission ip since ∧ s' = s.permitted ip := by
  unfold Session.endWait
  split
  · rename_i ip since hpoint
    simp [hpoint,eq_comm]
  · rename_i hpoint
    simp only [reduceCtorEq,false_iff]
    rintro ⟨ip,since,h,_⟩
    exact hpoint ip since h

/-- What a step does to the permissions. -/
inductive PermissionStep (s s' : Session) : Action → Prop
  | ask (ip : IpAddr) (hnew : ip ∉ s.turnPerms) (hpoint : s.point = .candidates) (h : s' = s.ask ip) :
      PermissionStep s s' (.candidate ip true)
  | answered (ip : IpAddr) (success : Bool) (hanswer : (ip,success) ∈ s.answers) (awaited : IpAddr) (since : ℕ)
      (hpoint : s.point = .permission awaited since) (h : s' = s.permitted awaited) :
      PermissionStep s s' (.response ip success)
  | givenUp {a : Action} (ha : a = .timeout ∨ a = .socketError) (ip : IpAddr) (since : ℕ)
      (hpoint : s.point = .permission ip since) (h : s' = s.permitted ip) : PermissionStep s s' a
  | grant (ip : IpAddr) (success : Bool) (hasked : (s.asked ip).isSome) (h : s' = s.serverAnswers ip success) :
      PermissionStep s s' (.serverAnswers ip success)
  | transmit (relayed : Bool) (ip : IpAddr) (hpoint : s.point = .polling) (h : s' = s) :
      PermissionStep s s' (.transmit relayed ip)
  | other {a : Action} (hne : ∀ relayed ip, a ≠ .transmit relayed ip)
      (hsame : s'.turnPerms = s.turnPerms ∧ s'.asked = s.asked ∧ s'.answers = s.answers ∧ s'.granted = s.granted)
      (hnow : s.now ≤ s'.now)
      (hpoint : ∀ ip since, s.point = .permission ip since → s'.point = s.point ∨ s'.point = .ended)
      (hended : s.point = .ended → s'.point = .ended) : PermissionStep s s' a

theorem permissionStep_candidate {ip : IpAddr} (sent : Bool) (hpoint : s.point = .candidates) :
    PermissionStep s (s.candidate ip sent) (.candidate ip sent) := by
  unfold Session.candidate
  split
  · rename_i hnew
    cases sent with
    | true => exact .ask ip hnew.2 hpoint rfl
    | false => exact .other (by simp) ⟨rfl,rfl,rfl,rfl⟩ le_rfl (fun _ _ _ => .inl rfl) id
  · exact .other (by simp) ⟨rfl,rfl,rfl,rfl⟩ le_rfl (fun _ _ _ => .inl rfl) id

theorem permissionStep (hs : step s a = some s') : PermissionStep s s' a := by
  cases a with
  | tick ms =>
    cases hs
    exact .other (by simp) ⟨rfl,rfl,rfl,rfl⟩ (Nat.le_add_right _ _) (fun _ _ _ => .inl rfl) id
  | candidate ip sent =>
    obtain ⟨hpoint,hs⟩ := Option.ite_none_right_eq_some.mp hs
    cases hs
    exact permissionStep_candidate sent hpoint
  | response ip success =>
    obtain ⟨hanswer,hs⟩ := Option.ite_none_right_eq_some.mp hs
    obtain ⟨awaited,since,hpoint,hs⟩ := endWait_eq_some.mp hs
    exact .answered ip success hanswer awaited since hpoint hs
  | timeout =>
    simp only [step] at hs
    split at hs
    · obtain ⟨_,hs⟩ := Option.ite_none_right_eq_some.mp hs
      obtain ⟨ip,since,hpoint,hs⟩ := endWait_eq_some.mp hs
      exact .givenUp (.inl rfl) ip since hpoint hs
    · cases hs
  | socketError =>
    obtain ⟨ip,since,hpoint,hs⟩ := endWait_eq_some.mp hs
    exact .givenUp (.inr rfl) ip since hpoint hs
  | transmit relayed ip =>
    obtain ⟨hpoint,hs⟩ := Option.ite_none_right_eq_some.mp hs
    exact .transmit relayed ip hpoint.1 (Option.some.inj hs).symm
  | serverAnswers ip success =>
    obtain ⟨hasked,hs⟩ := Option.ite_none_right_eq_some.mp hs
    exact .grant ip success hasked (Option.some.inj hs).symm
  | rearm =>
    simp only [step] at hs
    split at hs
    · rename_i sent hpoint
      cases hs
      exact .other (by simp) ⟨rfl,rfl,rfl,rfl⟩ le_rfl (fun ip since h => by simp [hpoint] at h)
        fun h => by simp [hpoint] at h
    · cases hs
  | quit =>
    obtain ⟨_,hs⟩ := Option.ite_none_left_eq_some.mp hs
    cases hs
    exact .other (by simp) ⟨rfl,rfl,rfl,rfl⟩ le_rfl (fun _ _ _ => .inr rfl) fun _ => rfl
  | learn ip =>
    obtain ⟨_,hs⟩ := Option.ite_none_right_eq_some.mp hs
    cases hs
    exact .other (by simp) ⟨rfl,rfl,rfl,rfl⟩ le_rfl (fun _ _ _ => .inl rfl) id
  | _ =>
    obtain ⟨hpoint,hs⟩ := Option.ite_none_right_eq_some.mp hs
    cases hs
    exact .other (by simp) ⟨rfl,rfl,rfl,rfl⟩ le_rfl (fun ip since h => by simp [h] at hpoint)
      fun h => by simp [h] at hpoint

/-- What is true of the requests in every session: their IPs are noted once the wait is over, and the server
grants only what it has been asked for. -/
structure Asked (s : Session) : Prop where
  noted : ∀ ip t, s.asked ip = some t →
    ip ∈ s.turnPerms ∨ s.point = .ended ∨ ∃ since, s.point = .permission ip since
  past : ∀ ip t, s.asked ip = some t → t ≤ s.now
  granted : ∀ ip t, s.granted ip = some t → ∃ t₀, s.asked ip = some t₀ ∧ t₀ ≤ t
  answered : ∀ ip, (ip,true) ∈ s.answers → s.granted ip ≠ none

theorem Asked.ask (h : Asked s) {ip : IpAddr} (hnew : ip ∉ s.turnPerms) (hpoint : s.point = .candidates) :
    Asked (s.ask ip) := by
  have hnoted : ∀ ip t, s.asked ip = some t → ip ∈ s.turnPerms := by
    intro ip t hasked
    simpa [hpoint] using h.noted ip t hasked
  refine ⟨?_,?_,?_,h.answered⟩
  · intro ip' t hasked
    by_cases hip : ip' = ip
    · subst hip
      exact .inr (.inr ⟨_,rfl⟩)
    · rw [s.asked_ask_of_ne hip] at hasked
      exact .inl (hnoted ip' t hasked)
  · intro ip' t hasked
    by_cases hip : ip' = ip
    · subst hip
      rw [s.asked_ask_self] at hasked
      cases hasked
      exact le_rfl
    · rw [s.asked_ask_of_ne hip] at hasked
      exact h.past ip' t hasked
  · intro ip' t hgranted
    obtain ⟨t₀,hasked,hle⟩ := h.granted ip' t hgranted
    have hip : ip' ≠ ip := by
      rintro rfl
      exact hnew (hnoted ip' t₀ hasked)
    exact ⟨t₀,by rw [s.asked_ask_of_ne hip,hasked],hle⟩

theorem Asked.permitted (h : Asked s) {ip : IpAddr} {since : ℕ} (hpoint : s.point = .permission ip since) :
    Asked (s.permitted ip) := by
  refine ⟨?_,h.past,h.granted,h.answered⟩
  intro ip' t hasked
  left
  rcases h.noted ip' t hasked with hnoted | hended | ⟨since',hwait⟩
  · exact List.mem_cons_of_mem _ hnoted
  · rw [hpoint] at hended
    cases hended
  · rw [hpoint] at hwait
    cases hwait
    exact List.mem_cons_self

theorem Asked.grant (h : Asked s) {ip : IpAddr} (hasked : (s.asked ip).isSome) (success : Bool) :
    Asked (s.serverAnswers ip success) := by
  cases success with
  | false =>
    refine ⟨h.noted,h.past,h.granted,fun ip' hmem => ?_⟩
    exact h.answered ip' (by simpa [Session.serverAnswers] using hmem)
  | true =>
    obtain ⟨t₀,ht₀⟩ := Option.isSome_iff_exists.mp hasked
    refine ⟨h.noted,h.past,fun ip' t hgranted => ?_,fun ip' hmem => ?_⟩
    · by_cases hip : ip' = ip
      · subst hip
        simp only [Session.serverAnswers,if_true,Function.update_self,Option.some.injEq] at hgranted
        exact ⟨t₀,ht₀,hgranted ▸ h.past ip' t₀ ht₀⟩
      · exact h.granted ip' t (by simpa [Session.serverAnswers,hip] using hgranted)
    · by_cases hip : ip' = ip
      · simp [Session.serverAnswers,hip]
      · simpa [Session.serverAnswers,hip] using h.answered ip' (by simpa [Session.serverAnswers,hip] using hmem)

theorem Asked.step (h : Asked s) (hs : Relay.step s a = some s') : Asked s' := by
  cases permissionStep hs with
  | ask ip hnew hpoint hs' =>
    subst hs'
    exact h.ask hnew hpoint
  | answered _ _ _ awaited since hpoint hs' =>
    subst hs'
    exact h.permitted hpoint
  | givenUp _ ip since hpoint hs' =>
    subst hs'
    exact h.permitted hpoint
  | grant ip success hasked hs' =>
    subst hs'
    exact h.grant hasked success
  | transmit _ _ _ hs' =>
    subst hs'
    exact h
  | other _ hsame hnow hpoint hended =>
    obtain ⟨hperms,hasked,hanswers,hgranted⟩ := hsame
    refine ⟨?_,?_,?_,?_⟩
    · intro ip t hip
      rw [hasked] at hip
      rw [hperms]
      refine (h.noted ip t hip).imp_right ?_
      rintro (hend | ⟨since,hwait⟩)
      · exact .inl (hended hend)
      · exact (hpoint ip since hwait).symm.imp_right fun hsame => ⟨since,hsame.trans hwait⟩
    · intro ip t hip
      exact (h.past ip t (hasked ▸ hip)).trans hnow
    · rw [hgranted,hasked]
      exact h.granted
    · rw [hanswers,hgranted]
      exact h.answered

theorem asked (h : RelayRun as s) : Asked s := by
  refine h.invariant (P := fun _ s => Asked s) ⟨by simp,by simp,by simp,by simp⟩ ?_
  intro as s a s' _ ih hs
  exact ih.step hs

theorem Asked.live (h : Asked s) (hnoted : ∀ ip ∈ s.turnPerms, s.granted ip ≠ none) (hpoint : s.point = .polling)
    {ip : IpAddr} {t₀ : ℕ} (hasked : s.asked ip = some t₀) (hage : s.now ≤ t₀ + 300000) : s.Live ip := by
  have hperm : ip ∈ s.turnPerms := by simpa [hpoint] using h.noted ip t₀ hasked
  obtain ⟨t,hgranted⟩ := Option.ne_none_iff_exists'.mp (hnoted ip hperm)
  obtain ⟨t₁,hasked',hle⟩ := h.granted ip t hgranted
  rw [hasked] at hasked'
  cases hasked'
  exact ⟨t,hgranted,hage.trans (Nat.add_le_add_right hle _)⟩

theorem permissionsLive_step (h : Asked s) (hlive : PermissionsLive as s) (hage : age ≤ 300000)
    (hguard : Answered age s a) (hs : step s a = some s') : PermissionsLive (a :: as) s' := by
  cases permissionStep hs with
  | ask ip hnew hpoint hs' =>
    subst hs'
    exact ⟨by simp,hlive.noted⟩
  | answered ip success hanswer awaited since hpoint hs' =>
    subst hs'
    obtain ⟨rfl,hawaited⟩ := hguard
    rw [hpoint] at hawaited
    cases hawaited
    refine ⟨by simp,fun ip' hmem => ?_⟩
    rcases List.mem_cons.mp hmem with rfl | hmem
    · exact h.answered ip' hanswer
    · exact hlive.noted ip' hmem
  | givenUp ha _ _ _ _ =>
    rcases ha with rfl | rfl
    · exact hguard.elim
    · exact hguard.elim
  | grant ip success hasked hs' =>
    subst hs'
    refine ⟨by simp,fun ip' hmem => ?_⟩
    have hne := hlive.noted ip' hmem
    cases success with
    | false => exact hne
    | true =>
      by_cases hip : ip' = ip
      · simp [Session.serverAnswers,hip]
      · simpa [Session.serverAnswers,hip] using hne
  | transmit relayed ip hpoint hs' =>
    subst hs'
    refine ⟨?_,hlive.noted⟩
    rintro ip' as' heq hturn
    cases heq
    obtain ⟨t₀,hasked,hnow⟩ := hguard hturn
    exact h.live hlive.noted hpoint hasked (hnow.trans (Nat.add_le_add_left hage _))
  | other hne hsame _ _ _ =>
    obtain ⟨hperms,_,_,hgranted⟩ := hsame
    refine ⟨?_,?_⟩
    · intro ip as' heq
      exact absurd (List.cons.inj heq).1 (hne true ip)
    · rw [hperms,hgranted]
      exact hlive.noted

theorem permissionsLive (hage : age ≤ 300000) (hrun : GuardedRun step {} (fun _ => Answered age) as s) :
    PermissionsLive as s := by
  refine hrun.invariant (P := PermissionsLive) ⟨by simp,by simp⟩ ?_
  intro as s a s' hprev ih hguard hs
  exact permissionsLive_step (asked hprev.run) ih hage hguard hs

/-- A candidate is trickled and its permission granted at once. -/
def trickled : List Action :=
  [.allocate₁,.allocate₂,.allocate true,.offer,.answer [],.candidate (.v4 0x0A000001) true,
    .serverAnswers (.v4 0x0A000001) true,.response (.v4 0x0A000001) true,.drained,.checkRefresh]

/-- The permission has run out when a packet is sent later than 300 s after the request. -/
theorem not_live_of_old (hage : 300000 < age) :
    ∃ as s, GuardedRun step {} (fun _ => Answered age) as s ∧ ¬ PermissionsLive as s := by
  obtain ⟨s,hrun,hp⟩ := exists_guarded_of_replay step {} (fun _ => Answered age) trickled
    (fun s => s.point = .polling ∧ s.turn = true ∧ s.now = 0 ∧ s.remote = [.v4 0x0A000001] ∧
      s.asked (.v4 0x0A000001) = some 0 ∧ s.granted (.v4 0x0A000001) = some 0) rfl
  obtain ⟨hpoint,hturn,hnow,hremote,hasked,hgranted⟩ := of_decide_eq_true hp
  have hsend : step { s with now := s.now + age } (.transmit true (.v4 0x0A000001)) =
      some { s with now := s.now + age } := by simp [step,hpoint,hremote]
  have hguard : Answered age { s with now := s.now + age } (.transmit true (.v4 0x0A000001)) := by
    intro _
    refine ⟨0,hasked,?_⟩
    simp [hnow]
  refine ⟨_,_,(hrun.next (a := Action.tick age) trivial rfl).next hguard hsend,fun hlive => ?_⟩
  obtain ⟨t,ht,hle⟩ := hlive.covered _ _ rfl hturn
  change s.granted _ = some t at ht
  rw [hgranted] at ht
  cases ht
  change s.now + age ≤ 0 + 300000 at hle
  omega

/-- In all sessions whose permissions are granted before the wait for them ends, and in which packets go through
the relay only to IPs of trickled candidates and at most `age` after the request, permissions are noted only when
granted and packets through the relay are covered, exactly if `age` is at most 300 s. -/
theorem permissions_live_iff (age : ℕ) :
    (∀ as s, GuardedRun step {} (fun _ => Answered age) as s → PermissionsLive as s) ↔ age ≤ 300000 := by
  constructor
  · intro hlive
    by_contra hold
    obtain ⟨as,s,hrun,hnot⟩ := not_live_of_old (Nat.not_le.mp hold)
    exact hnot (hlive as s hrun)
  · intro hage as s hrun
    exact permissionsLive hage hrun

/-- The answer of the server comes in the middle of the wait, and a packet at the end of the five minutes. -/
def lastPacket : List Action :=
  [.allocate₁,.allocate₂,.allocate true,.offer,.answer [.v4 0x0A000001],.candidate (.v4 0xCB007105) true,.tick 700,
    .serverAnswers (.v4 0xCB007105) true,.tick 300,.response (.v4 0xCB007105) true,.drained,.checkRefresh,
    .tick 299000,.transmit false (.v4 0x0A000001),.transmit true (.v4 0xCB007105)]

theorem permissions_live_iff_lastPacket :
    ∃ s, GuardedRun step {} (fun _ => Answered 300000) lastPacket.reverse s ∧
      (s.now = 300000 ∧ s.turnPerms = [.v4 0xCB007105]) ∧ PermissionsLive lastPacket.reverse s := by
  obtain ⟨s,hrun,hp⟩ := exists_guarded_of_replay step {} (fun _ => Answered 300000) lastPacket
    (fun s => s.now = 300000 ∧ s.turnPerms = [.v4 0xCB007105]) (by decide)
  exact ⟨s,hrun,of_decide_eq_true hp,(permissions_live_iff 300000).mpr le_rfl _ s hrun⟩

/-- An IP that is given in the answer of the browser only. -/
def answerCandidate : List Action :=
  [.allocate₁,.allocate₂,.allocate true,.offer,.answer [.v4 0x0A000001],.drained,.checkRefresh,
    .transmit true (.v4 0x0A000001)]

/-- A packet goes through the relay to an IP that no permission has been asked for; and a permission is
noted when the wait for it has timed out. -/
theorem uncovered_packet_and_permission :
    (¬ ∀ as s, RelayRun as s → ∀ ip as', as = .transmit true ip :: as' → s.turn = true → s.Live ip) ∧
      ¬ ∀ as s, RelayRun as s → ∀ ip ∈ s.turnPerms, s.granted ip ≠ none := by
  constructor
  · intro h
    obtain ⟨s,hrun,hp⟩ := exists_run_of_replay step {} answerCandidate
      (fun s => s.turn = true ∧ s.granted (.v4 0x0A000001) = none) (by decide)
    obtain ⟨hturn,hnone⟩ := of_decide_eq_true hp
    obtain ⟨t,hgranted,_⟩ := h _ s hrun (.v4 0x0A000001) _ rfl hturn
    rw [hnone] at hgranted
    cases hgranted
  · intro h
    obtain ⟨s,hrun,hp⟩ := exists_run_of_replay step {}
      [.allocate₁,.allocate₂,.allocate true,.offer,.answer [],.candidate (.v4 0x0A000001) true,
        .tick 2000,.timeout]
      (fun s => s.turnPerms = [.v4 0x0A000001] ∧ s.granted (.v4 0x0A000001) = none) (by decide)
    obtain ⟨hperms,hnone⟩ := of_decide_eq_true hp
    exact h _ s hrun (.v4 0x0A000001) (by rw [hperms]; exact List.mem_cons_self) hnone

end Relay
end AnyKvm
