import AnyKvm.BindingChecks
import AnyKvm.Transition

/-! What two agents that check their pairs with each other agree on: which requests have been answered, and which
nominations have succeeded. -/
namespace AnyKvm
namespace Checks

open Outcome Stun
open Turn (SocketAddr)

/-- A pair remembers attempts that have been made, and is as far as the peer has answered. -/
structure Fair (role : Role) (requested answered : List (TransId × Bool)) (p : CandidatePair) : Prop where
  attempts : ∀ b ∈ p.bindingAttempts, (b.transId,decide (role = .controlling) && b.nominated) ∈ requested
  succeeded : p.state = .succeeded → ∃ x, x ∈ answered
  success : p.nominationState = .success → ∃ transId, (transId,decide (role = .controlling)) ∈ answered

def RequestTo [Crates] (creds : Role → IceCreds) (role : Role) (requested : List (TransId × Bool))
    (contents : Bytes) : Prop :=
  ∃ transId controlling tieBreaker prio use, (transId,use) ∈ requested ∧ contents =
    (Message.bindingRequest (username creds role) transId controlling tieBreaker prio use).wire (creds role).pass

def ReplyTo [Crates] (creds : Role → IceCreds) (role : Role) (answered : List (TransId × Bool))
    (contents : Bytes) : Prop :=
  ∃ transId mapped use, (transId,use) ∈ answered ∧
    contents = (Message.reply transId mapped).wire (creds role.peer).pass

def State.Nominated (s : State) (role : Role) : Prop :=
  (∃ p ∈ (s.agents role).candidatePairs, p.isNominated) ∨ ∃ p ∈ s.pruned role, p.isNominated

structure Sound [Crates] (creds : Role → IceCreds) (s : State) : Prop where
  paired : ∀ role, Paired creds role (s.agents role)
  pairs : ∀ role, ∀ p ∈ (s.agents role).candidatePairs, Fair role (s.requested role) (s.answered role.peer) p
  sent : ∀ role, ∀ contents ∈ s.sent role,
    RequestTo creds role (s.requested role.peer) contents ∨ ReplyTo creds role (s.answered role.peer) contents
  unique : ∀ role transId use use', (transId,use) ∈ s.requested role → (transId,use') ∈ s.requested role → use = use'
  answered : ∀ role, s.answered role ⊆ s.requested role.peer
  nominated : ∀ transId, (transId,true) ∈ s.answered .controlled → s.Nominated .controlled

theorem Fair.mono {role : Role} {requested requested' answered answered' : List (TransId × Bool)}
    {p : CandidatePair} (h : Fair role requested answered p) (hrequested : requested ⊆ requested')
    (hanswered : answered ⊆ answered') : Fair role requested' answered' p where
  attempts := fun b hb => hrequested (h.attempts b hb)
  succeeded := fun hs => (h.succeeded hs).imp fun _ hx => hanswered hx
  success := fun hs => (h.success hs).imp fun _ hx => hanswered hx

theorem fair_new (role : Role) (requested answered : List (TransId × Bool)) : Fair role requested answered .new where
  attempts := fun _ hb => nomatch hb
  succeeded := fun h => nomatch h
  success := fun h => nomatch h

section Fairness
variable {role : Role} {requested answered : List (TransId × Bool)} {p p' : CandidatePair} {transId : TransId}

theorem Fair.newAttempt (h : Fair role requested answered p)
    (hrequested : (transId,decide (role = .controlling) && p.isNominated) ∈ requested) :
    Fair role requested answered (p.newAttempt transId) where
  attempts := by
    intro b hb
    rcases List.mem_append.mp (List.mem_of_mem_drop hb) with hold | hnew
    · exact h.attempts b hold
    · rw [List.mem_singleton.mp hnew]
      have hnominated : decide ((if p.nominationState = .nominated then NominationState.attempt
          else p.nominationState) ≠ .none) = p.isNominated := by
        unfold CandidatePair.isNominated
        cases p.nominationState <;> rfl
      rw [hnominated]
      exact hrequested
  succeeded := by
    intro hs
    refine h.succeeded ?_
    simp only [CandidatePair.newAttempt] at hs
    split at hs
    · cases hs
    · exact hs
  success := by
    intro hs
    refine h.success ?_
    simp only [CandidatePair.newAttempt] at hs
    split at hs
    · cases hs
    · exact hs

theorem isNominated_newAttempt (hp : p.isNominated) : (p.newAttempt transId).isNominated := by
  unfold CandidatePair.isNominated CandidatePair.newAttempt at *
  cases h : p.nominationState <;> simp_all

theorem Fair.asked (h : Fair role requested answered p) (nominate : Bool) :
    Fair role requested answered (p.asked nominate) := by
  unfold CandidatePair.asked
  split
  · exact ⟨h.attempts,h.succeeded,fun hs => nomatch hs⟩
  · exact h

theorem isNominated_asked (nominate : Bool) (hp : p.isNominated) : (p.asked nominate).isNominated := by
  unfold CandidatePair.asked
  split
  · rfl
  · exact hp

theorem Fair.recorded (h : Fair role requested answered p) (hp : p.recordBindingResponse transId = .ok p')
    {use : Bool} (hanswered : (transId,use) ∈ answered)
    (huse : ∀ use', (transId,use') ∈ requested → use' = use) : Fair role requested answered p' := by
  unfold CandidatePair.recordBindingResponse at hp
  split at hp
  · cases hp
  · rename_i b hb
    cases hp
    refine ⟨h.attempts,fun _ => ⟨_,hanswered⟩,fun hs => ?_⟩
    simp only at hs
    split at hs
    · rename_i hnominated
      have hfound := List.find?_some hb
      have hid : b.transId = transId := of_decide_eq_true hfound
      have hflag := huse _ (hid ▸ h.attempts b (List.mem_of_find?_eq_some hb))
      rw [hnominated.1,Bool.and_true] at hflag
      exact ⟨transId,hflag ▸ hanswered⟩
    · exact h.success hs

theorem isNominated_recorded (hp : p.recordBindingResponse transId = .ok p') (hn : p.isNominated) :
    p'.isNominated := by
  unfold CandidatePair.recordBindingResponse at hp
  split at hp
  · cases hp
  · cases hp
    unfold CandidatePair.isNominated at *
    simp only
    split
    · rfl
    · exact hn

end Fairness

section Update
variable (s : State) {role role' : Role}

@[simp] theorem agents_setAgent (agent : IceAgent) : (s.setAgent role agent).agents role = agent :=
  Function.update_self ..

theorem agents_setAgent_of_ne (h : role' ≠ role) (agent : IceAgent) :
    (s.setAgent role agent).agents role' = s.agents role' :=
  Function.update_of_ne h ..

@[simp] theorem sent_send (contents : Bytes) : (s.send role contents).sent role = contents :: s.sent role :=
  Function.update_self ..

theorem sent_send_of_ne (h : role' ≠ role) (contents : Bytes) : (s.send role contents).sent role' = s.sent role' :=
  Function.update_of_ne h ..

@[simp] theorem requested_logRequest (m : Message) :
    (s.logRequest role m).requested role = (m.transId,m.attrs.useCandidate) :: s.requested role :=
  Function.update_self ..

theorem requested_logRequest_of_ne (h : role' ≠ role) (m : Message) :
    (s.logRequest role m).requested role' = s.requested role' :=
  Function.update_of_ne h ..

@[simp] theorem answered_logAnswer (m : Message) :
    (s.logAnswer role m).answered role = (m.transId,m.attrs.useCandidate) :: s.answered role :=
  Function.update_self ..

theorem answered_logAnswer_of_ne (h : role' ≠ role) (m : Message) :
    (s.logAnswer role m).answered role' = s.answered role' :=
  Function.update_of_ne h ..

@[simp] theorem agents_prune (pairIdx : ℕ) : (s.prune role pairIdx).agents role =
    { s.agents role with candidatePairs := (s.agents role).candidatePairs.eraseIdx pairIdx } :=
  agents_setAgent s _

theorem agents_prune_of_ne (h : role' ≠ role) (pairIdx : ℕ) : (s.prune role pairIdx).agents role' = s.agents role' :=
  agents_setAgent_of_ne s h _

@[simp] theorem pruned_prune (pairIdx : ℕ) : (s.prune role pairIdx).pruned role =
    (s.agents role).candidatePairs[pairIdx]?.toList ++ s.pruned role :=
  Function.update_self ..

theorem pruned_prune_of_ne (h : role' ≠ role) (pairIdx : ℕ) : (s.prune role pairIdx).pruned role' = s.pruned role' :=
  Function.update_of_ne h ..

theorem setAgent_self (role : Role) : s.setAgent role (s.agents role) = s := by
  rw [State.setAgent,Function.update_eq_self]

end Update

section Keeping
variable {creds : Role → IceCreds} {s : State}

theorem paired_setPairs (h : ∀ role, Paired creds role (s.agents role)) (role : Role)
    (pairs' : List CandidatePair) (role' : Role) :
    Paired creds role' ((s.setAgent role { s.agents role with candidatePairs := pairs' }).agents role') := by
  by_cases hrole : role' = role
  · subst hrole
    rw [agents_setAgent]
    exact ⟨(h role').localCredentials,(h role').remoteCredentials,(h role').controlling,(h role').iceLite⟩
  · rw [agents_setAgent_of_ne s hrole]
    exact h role'

theorem fair_setPairs
    (h : ∀ role, ∀ p ∈ (s.agents role).candidatePairs, Fair role (s.requested role) (s.answered role.peer) p)
    (role : Role) {pairs' : List CandidatePair}
    (hpairs : ∀ p ∈ pairs', Fair role (s.requested role) (s.answered role.peer) p) (role' : Role) :
    ∀ p ∈ ((s.setAgent role { s.agents role with candidatePairs := pairs' }).agents role').candidatePairs,
      Fair role' (s.requested role') (s.answered role'.peer) p := by
  by_cases hrole : role' = role
  · subst hrole
    rw [agents_setAgent]
    exact hpairs
  · rw [agents_setAgent_of_ne s hrole]
    exact h role'

theorem Sound.changed [Crates] (hs : Sound creds s) (role : Role) {pairs' : List CandidatePair} {p p' : CandidatePair}
    (hchanged : Changed (s.agents role).candidatePairs pairs' p p')
    (hfair : Fair role (s.requested role) (s.answered role.peer) p →
      Fair role (s.requested role) (s.answered role.peer) p')
    (hnominated : p.isNominated → p'.isNominated) :
    Sound creds (s.setAgent role { s.agents role with candidatePairs := pairs' }) where
  paired := paired_setPairs hs.paired role pairs'
  pairs := by
    refine fair_setPairs hs.pairs role fun q hq => ?_
    rcases hchanged.others q hq with hold | rfl | rfl
    · exact hs.pairs role q hold
    · exact fair_new _ _ _
    · refine hfair ?_
      rcases hchanged.before with hp | rfl
      · exact hs.pairs role p hp
      · exact fair_new _ _ _
  sent := hs.sent
  unique := hs.unique
  answered := hs.answered
  nominated := by
    intro transId htrans
    have hold := hs.nominated transId htrans
    by_cases h : Role.controlled = role
    · subst h
      refine hold.imp_left fun h => ?_
      rw [agents_setAgent]
      exact hchanged.nominated hnominated h
    · refine hold.imp_left fun h' => ?_
      rw [agents_setAgent_of_ne s h]
      exact h'

theorem nominated_prune {role : Role} (h : s.Nominated role) (pairIdx : ℕ) :
    (s.prune role pairIdx).Nominated role := by
  unfold State.Nominated
  rw [agents_prune,pruned_prune]
  rcases h with ⟨p,hp,hn⟩ | ⟨p,hp,hn⟩
  · obtain ⟨i,hi,rfl⟩ := List.getElem_of_mem hp
    by_cases hidx : i = pairIdx
    · subst hidx
      refine .inr ⟨_,List.mem_append_left _ ?_,hn⟩
      rw [List.getElem?_eq_getElem hi]
      exact List.mem_singleton.mpr rfl
    · exact .inl ⟨_,List.mem_eraseIdx_iff_getElem.mpr ⟨i,hi,hidx,rfl⟩,hn⟩
  · exact .inr ⟨p,List.mem_append_right _ hp,hn⟩

theorem Sound.prune [Crates] (hs : Sound creds s) (role : Role) (pairIdx : ℕ) : Sound creds (s.prune role pairIdx) where
  paired := paired_setPairs hs.paired role _
  pairs := fair_setPairs hs.pairs role fun p hp => hs.pairs role p (List.mem_of_mem_eraseIdx hp)
  sent := hs.sent
  unique := hs.unique
  answered := hs.answered
  nominated := by
    intro transId htrans
    have hold := hs.nominated transId htrans
    by_cases h : Role.controlled = role
    · subst h
      exact nominated_prune hold pairIdx
    · unfold State.Nominated
      rw [agents_prune_of_ne s h,pruned_prune_of_ne s h]
      exact hold

theorem Sound.send [Crates] (hs : Sound creds s) (role : Role) (contents : Bytes)
    (hcontents : RequestTo creds role (s.requested role.peer) contents ∨
      ReplyTo creds role (s.answered role.peer) contents) : Sound creds (s.send role contents) where
  paired := hs.paired
  pairs := hs.pairs
  sent := by
    intro role' c hc
    by_cases h : role' = role
    · subst h
      rw [sent_send] at hc
      rcases List.mem_cons.mp hc with rfl | hc
      · exact hcontents
      · exact hs.sent role' c hc
    · rw [sent_send_of_ne s h] at hc
      exact hs.sent role' c hc
  unique := hs.unique
  answered := hs.answered
  nominated := hs.nominated

theorem subset_update (log : Role → List (TransId × Bool)) (role role' : Role) (x : TransId × Bool) :
    log role' ⊆ Function.update log role (x :: log role) role' := by
  by_cases h : role' = role
  · subst h
    rw [Function.update_self]
    exact List.subset_cons_self x _
  · rw [Function.update_of_ne h]
    exact List.Subset.refl _

theorem RequestTo.mono [Crates] {role : Role} {requested requested' : List (TransId × Bool)} {contents : Bytes}
    (h : RequestTo creds role requested contents) (hsub : requested ⊆ requested') :
    RequestTo creds role requested' contents := by
  obtain ⟨transId,controlling,tieBreaker,prio,use,hmem,hcontents⟩ := h
  exact ⟨transId,controlling,tieBreaker,prio,use,hsub hmem,hcontents⟩

theorem ReplyTo.mono [Crates] {role : Role} {answered answered' : List (TransId × Bool)} {contents : Bytes}
    (h : ReplyTo creds role answered contents) (hsub : answered ⊆ answered') :
    ReplyTo creds role answered' contents := by
  obtain ⟨transId,mapped,use,hmem,hcontents⟩ := h
  exact ⟨transId,mapped,use,hsub hmem,hcontents⟩

theorem Sound.logRequest [Crates] (hs : Sound creds s) (role : Role) (m : Message)
    (hfresh : ∀ use, (m.transId,use) ∉ s.requested role) :
    Sound creds (s.logRequest role m) where
  paired := hs.paired
  pairs := fun role' p hp => (hs.pairs role' p hp).mono (subset_update _ _ _ _) (List.Subset.refl _)
  sent := fun role' c hc => (hs.sent role' c hc).imp_left fun h => h.mono (subset_update _ _ _ _)
  unique := by
    intro role' transId use use' huse huse'
    by_cases h : role' = role
    · subst h
      rw [requested_logRequest] at huse huse'
      rcases List.mem_cons.mp huse with h₁ | h₁ <;> rcases List.mem_cons.mp huse' with h₂ | h₂
      · exact congrArg Prod.snd (h₁.trans h₂.symm)
      · exact absurd ((Prod.mk.inj h₁).1 ▸ h₂) (hfresh use')
      · exact absurd ((Prod.mk.inj h₂).1 ▸ h₁) (hfresh use)
      · exact hs.unique role' transId use use' h₁ h₂
    · rw [requested_logRequest_of_ne s h] at huse huse'
      exact hs.unique role' transId use use' huse huse'
  answered := fun role' _ hx => subset_update _ _ _ _ (hs.answered role' hx)
  nominated := hs.nominated

theorem Sound.logAnswer [Crates] (hs : Sound creds s) (role : Role) (m : Message)
    (hmem : (m.transId,m.attrs.useCandidate) ∈ s.requested role.peer)
    (hnominated : role = .controlled → m.attrs.useCandidate = true →
      ∃ p ∈ (s.agents .controlled).candidatePairs, p.isNominated) : Sound creds (s.logAnswer role m) where
  paired := hs.paired
  pairs := fun role' p hp => (hs.pairs role' p hp).mono (List.Subset.refl _) (subset_update _ _ _ _)
  sent := fun role' c hc => (hs.sent role' c hc).imp_right fun h => h.mono (subset_update _ _ _ _)
  unique := hs.unique
  answered := by
    intro role' x hx
    by_cases h : role' = role
    · subst h
      rw [answered_logAnswer] at hx
      rcases List.mem_cons.mp hx with rfl | hx
      · exact hmem
      · exact hs.answered role' hx
    · rw [answered_logAnswer_of_ne s h] at hx
      exact hs.answered role' hx
  nominated := by
    intro transId htrans
    by_cases h : Role.controlled = role
    · subst h
      rw [answered_logAnswer] at htrans
      rcases List.mem_cons.mp htrans with heq | hold
      · exact .inl (hnominated rfl (congrArg Prod.snd heq).symm)
      · exact hs.nominated transId hold
    · rw [answered_logAnswer_of_ne s h] at htrans
      exact hs.nominated transId htrans

end Keeping

section Steps
variable {creds : Role → IceCreds} {s : State}

theorem Sound.request [Crates] (hs : Sound creds s) (hnamed : Named creds) (t : Target) {role : Role} {pairIdx : ℕ}
    {transId : TransId} {prio : UInt32} (henabled : Enabled s (.request role pairIdx transId prio)) :
    ∃ s', perform t s (.request role pairIdx transId prio) = .ok s' ∧ Sound creds s' := by
  obtain ⟨hpair,hfresh⟩ := henabled
  obtain ⟨binding,hbinding,heq⟩ := request_eq hnamed (hs.paired role) hpair transId prio
  have htrans : binding.transId = transId := by
    rw [hbinding]
    rfl
  have huse : binding.attrs.useCandidate =
      (decide (role = .controlling) && (s.agents role).candidatePairs[pairIdx].isNominated) := by
    rw [hbinding,← (hs.paired role).controlling]
    rfl
  have hlogged : (transId,decide (role = .controlling) && (s.agents role).candidatePairs[pairIdx].isNominated) ∈
      (s.logRequest role binding).requested role := by
    rw [requested_logRequest,htrans,huse]
    exact List.mem_cons_self
  have hchanged := (hs.logRequest role binding (by rw [htrans]; exact hfresh)).changed role
    (changed_set hpair ((s.agents role).candidatePairs[pairIdx].newAttempt transId))
    (fun hfair => hfair.newAttempt hlogged) isNominated_newAttempt
  refine ⟨_,?_,hchanged.send role.peer (binding.wire (creds role.peer).pass) (.inl ?_)⟩
  · simp only [perform,heq,ok_bind]
    rfl
  rw [Role.peer_peer]
  refine ⟨transId,(s.agents role).controlling,(s.agents role).controlTieBreaker,prio,_,hlogged,?_⟩
  rw [hbinding,(hs.paired role).controlling]

theorem parse_request [Crates] (hnamed : Named creds) (t : Target) (role : Role) (transId : TransId)
    (controlling : Bool) (tieBreaker : UInt64) (prio : UInt32) (use : Bool) :
    Message.parse t ((Message.bindingRequest (username creds role) transId controlling tieBreaker prio
        use).wire (creds role).pass) =
      .ok ((Message.bindingRequest (username creds role) transId controlling tieBreaker prio
        use).received (creds role).pass) :=
  Message.parse_wire t _ (sendable_request hnamed transId controlling tieBreaker prio use)

theorem parse_reply [Crates] (creds : Role → IceCreds) (t : Target) (role : Role) (transId : TransId)
    (mapped : SocketAddr) :
    Message.parse t ((Message.reply transId mapped).wire (creds role.peer).pass) =
      .ok ((Message.reply transId mapped).received (creds role.peer).pass) :=
  Message.parse_wire t _ (Message.sendable_reply transId mapped)

theorem Sound.receive_request [Crates] (hs : Sound creds s) (hnamed : Named creds) (t : Target) {role : Role}
    {contents : Bytes} (hcontents : RequestTo creds role (s.requested role.peer) contents) (source : SocketAddr)
    (found : Option ℕ) :
    ∃ s', perform t s (.receive role contents source found) = .ok s' ∧ Sound creds s' := by
  obtain ⟨transId,controlling,tieBreaker,prio,use,hmem,rfl⟩ := hcontents
  obtain ⟨message,hmessage,hhandle⟩ := handle_request hnamed (hs.paired role) transId controlling tieBreaker prio use
    source found
  have hparse := parse_request hnamed t role transId controlling tieBreaker prio use
  rw [← hmessage] at hparse
  have hlog : (message.transId,message.attrs.useCandidate) = (transId,use) := by
    rw [hmessage]
    rfl
  rcases hhandle with hdiscarded | ⟨huse,pairs',p,hchanged,hanswered⟩
  · refine ⟨s,?_,hs⟩
    simp only [perform,hparse,hdiscarded,ok_bind,setAgent_self]
  · have hagent := hs.changed role hchanged (fun hfair => hfair.asked _) (isNominated_asked _)
    have hnominated : role = .controlled → message.attrs.useCandidate = true →
        ∃ q ∈ ((s.setAgent role { s.agents role with candidatePairs := pairs' }).agents .controlled).candidatePairs,
          q.isNominated := by
      intro hrole hflag
      subst hrole
      have hflag' : use = true := (congrArg Prod.snd hlog).symm.trans hflag
      have hnot := huse hflag'
      rw [agents_setAgent]
      refine ⟨_,hchanged.after,?_⟩
      rw [hnot,hflag']
      exact p.isNominated_asked
    have hanswer := hagent.logAnswer role message (by rw [hlog]; exact hmem) hnominated
    refine ⟨_,?_,hanswer.send role.peer ((Message.reply transId source).wire (creds role).pass) (.inr ?_)⟩
    · simp only [perform,hparse,hanswered,ok_bind]
    · refine ⟨transId,source,use,?_,by rw [Role.peer_peer]⟩
      rw [Role.peer_peer,answered_logAnswer,hlog]
      exact List.mem_cons_self

theorem Sound.receive_reply [Crates] (hs : Sound creds s) (t : Target) {role : Role} {contents : Bytes}
    (hcontents : ReplyTo creds role (s.answered role.peer) contents) (source : SocketAddr) (found : Option ℕ) :
    ∃ s', perform t s (.receive role contents source found) = .ok s' ∧ Sound creds s' := by
  obtain ⟨transId,mapped,use,hmem,rfl⟩ := hcontents
  obtain ⟨message,hmessage,hhandle⟩ := handle_reply (hs.paired role) transId mapped source found
  have hparse := parse_reply creds t role transId mapped
  rw [← hmessage] at hparse
  have hrequested := hs.answered role.peer hmem
  rw [Role.peer_peer] at hrequested
  rcases hhandle with hdropped | ⟨pairs',p,p',hchanged,hrecorded,hhandled⟩
  · refine ⟨s,?_,hs⟩
    simp only [perform,hparse,hdropped,ok_bind,setAgent_self]
  · have hagent := hs.changed role hchanged (fun hfair => hfair.recorded hrecorded hmem
      fun use' huse' => hs.unique role transId use' use huse' hrequested) (isNominated_recorded hrecorded)
    refine ⟨_,?_,hagent⟩
    simp only [perform,hparse,hhandled,ok_bind]

theorem Sound.perform [Crates] (hs : Sound creds s) (hnamed : Named creds) (t : Target) {a : Action}
    (ha : Enabled s a) :
    ∃ s', perform t s a = .ok s' ∧ Sound creds s' := by
  cases a with
  | request role pairIdx transId prio => exact hs.request hnamed t ha
  | receive role contents source found =>
    rcases hs.sent role contents ha with h | h
    · exact hs.receive_request hnamed t h source found
    · exact hs.receive_reply t h source found
  | evaluateNomination role pairIdx =>
    rcases evaluateNomination_eq (hs.paired role) pairIdx with h | ⟨pairs',p,hchanged,h⟩
    · refine ⟨s,?_,hs⟩
      simp only [Checks.perform,h,ok_bind,setAgent_self]
    · refine ⟨_,?_,hs.changed role hchanged (fun hfair => hfair.asked true) (isNominated_asked true)⟩
      simp only [Checks.perform,h,ok_bind]
  | prune role pairIdx => exact ⟨_,rfl,hs.prune role pairIdx⟩

end Steps

structure Start (creds : Role → IceCreds) (s : State) : Prop where
  paired : ∀ role, Paired creds role (s.agents role)
  pairs : ∀ role, ∀ p ∈ (s.agents role).candidatePairs, p = .new
  sent : ∀ role, s.sent role = []
  requested : ∀ role, s.requested role = []
  answered : ∀ role, s.answered role = []

section Runs
variable {creds : Role → IceCreds} {start s : State} {as : List Action}

theorem Start.sound [Crates] (h : Start creds start) : Sound creds start where
  paired := h.paired
  pairs := by
    intro role p hp
    rw [h.pairs role p hp]
    exact fair_new _ _ _
  sent := fun role _ hc => nomatch h.sent role ▸ hc
  unique := fun role _ _ _ hmem => nomatch h.requested role ▸ hmem
  answered := fun role => h.answered role ▸ List.nil_subset _
  nominated := fun _ hmem => nomatch h.answered .controlled ▸ hmem

theorem sound_of_run [Crates] (t : Target) (hnamed : Named creds) (hstart : Start creds start)
    (hrun : Transition.GuardedRun (step t) start (fun _ => Enabled) as s) : Sound creds s := by
  refine Transition.GuardedRun.invariant (P := fun _ => Sound creds) hstart.sound
    (fun _ s a s' _ hs henabled hstep => ?_) hrun
  obtain ⟨next,hperform,hnext⟩ := hs.perform hnamed t henabled
  rw [step,hperform] at hstep
  exact Option.some.inj hstep ▸ hnext

theorem Sound.accepts [Crates] (hs : Sound creds s) (hnamed : Named creds) (t : Target) {role : Role} {contents : Bytes}
    (hcontents : contents ∈ s.sent role) :
    ∃ message, Message.parse t contents = .ok message ∧ (s.agents role).acceptsMessage message =
      .ok (message.cls = .request || (s.agents role).candidatePairs.any (·.hasBindingAttempt message.transId)) := by
  rcases hs.sent role contents hcontents with h | h
  · obtain ⟨transId,controlling,tieBreaker,prio,use,-,rfl⟩ := h
    refine ⟨_,parse_request hnamed t role transId controlling tieBreaker prio use,?_⟩
    rw [accepts_request hnamed (hs.paired role)]
    rfl
  · obtain ⟨transId,mapped,use,-,rfl⟩ := h
    refine ⟨_,parse_reply creds t role transId mapped,?_⟩
    rw [accepts_reply (hs.paired role)]
    rfl

section Delivery
variable [Crates] (hs : Sound creds s) (hnamed : Named creds) (t : Target) (role : Role) {transId : TransId}
include hs

end Delivery

end Runs

end Checks
end AnyKvm
