import AnyKvm.ChannelSends

/-! Which connections of a role are heard.
A connection that has lost its slot to a newer one keeps running with the same room object: what it
reads is still forwarded, and an offer of it is still cached, since `set` leaves the cache alone. -/
namespace AnyKvm
namespace SignalServer

open Transition

section Machine
variable {C Msg : Type*} [DecidableEq C] (query : C → Query) (unmarshal : Msg → Option SignalMsg)

/-- Another connection has executed `set` for the role on the same room object later. -/
def Replaced (as : List (Action C Msg)) (s : State C Msg) (c : C) : Prop :=
  .set c ∈ as ∧ lastSetter query s (roomID query c) (s.handler c).rm (role query c) as ≠ some c

/-- The device connection whose offer is in the cache of a room object. -/
def cacheOwner (s : State C Msg) (id : String) (n : ℕ) : List (Action C Msg) → Option C
  | [] => none
  | .recv c raw :: as =>
    if (role query c = .device ∧ isOffer unmarshal raw = true) ∧
        id = roomID query c ∧ n = (s.handler c).rm then some c
    else cacheOwner s id n as
  | .clear c :: as =>
    if (id = roomID query c ∧ n = (s.handler c).rm) ∧ role query c = .device then none
    else cacheOwner s id n as
  | _ :: as => cacheOwner s id n as

/-- No message that a replaced connection has read was enqueued to a peer, and a cached offer is of
the device in the slot. -/
structure OnlyCurrentSpeaks (as : List (Action C Msg)) (s : State C Msg) : Prop where
  silent : ∀ c raw as' s', .recv c raw :: as' <:+ as → ServerRun query unmarshal as' s' →
    Replaced query as' s' c → ∀ target, enqueued query unmarshal s' (.recv c raw) target = none
  owner : ∀ id n c, cacheOwner query unmarshal s id n as = some c →
    ¬ Replaced query as s c ∧ (s.heap id n).slot .device = some c

/-- A device registers only while no offer is cached, offers come from the device in the slot, and a
replaced connection reads messages only while its peer is away or has a full queue. -/
def OnlyCurrentActs (as : List (Action C Msg)) (s : State C Msg) : Action C Msg → Prop
  | .set c => role query c = .device → (s.roomOf query c).offerCache = none
  | .recv c raw =>
    (role query c = .device → isOffer unmarshal raw = true →
      (s.roomOf query c).slot .device = some c) ∧
    (Replaced query as s c → unmarshal raw ≠ none →
      ∀ target, (s.roomOf query c).slot (Room.peerOf (role query c)) = some target →
        (s.send target).queue.isFull = true)
  | _ => True

variable {query unmarshal} {as : List (Action C Msg)} {s s' : State C Msg} {a : Action C Msg}
variable {id : String} {n : ℕ} {c : C}

theorem set_mem_of_recv (h : ServerRun query unmarshal as s) {raw : Msg} (hmem : .recv c raw ∈ as) :
    .set c ∈ as := by
  induction h with
  | init => cases hmem
  | @next as s s' a hrun hs ih =>
    rcases List.mem_cons.mp hmem with rfl | hmem
    · have hen := (step_eq_some.mp hs).1
      simp only [enabled,decide_eq_true_eq] at hen
      exact List.mem_cons_of_mem _ ((set_mem_iff hrun c).mpr (by simp [hen,Pc.rank]))
    · exact List.mem_cons_of_mem _ (ih hmem)

theorem set_mem_of_clear (h : ServerRun query unmarshal as s) (hmem : .clear c ∈ as) : .set c ∈ as := by
  rw [clear_mem_iff h] at hmem
  exact (set_mem_iff h c).mpr (by omega)

section Owner
omit [DecidableEq C]

theorem cacheOwner_spec (h : cacheOwner query unmarshal s id n as = some c) :
    (∃ raw, .recv c raw ∈ as) ∧ (id = roomID query c ∧ n = (s.handler c).rm) ∧
      role query c = .device := by
  induction as with
  | nil => cases h
  | cons a as ih =>
    have later : cacheOwner query unmarshal s id n as = some c →
        (∃ raw, .recv c raw ∈ a :: as) ∧ (id = roomID query c ∧ n = (s.handler c).rm) ∧
          role query c = .device := by
      intro h
      obtain ⟨⟨raw,hraw⟩,hrest⟩ := ih h
      exact ⟨⟨raw,List.mem_cons_of_mem _ hraw⟩,hrest⟩
    cases a with
    | recv d raw =>
      simp only [cacheOwner] at h
      split at h
      · rename_i hd
        cases h
        exact ⟨⟨raw,List.mem_cons_self⟩,hd.2,hd.1.1⟩
      · exact later h
    | clear d =>
      simp only [cacheOwner] at h
      split at h
      · cases h
      · exact later h
    | _ => exact later h

theorem cacheOwner_congr (h : ∀ d, (∃ raw, .recv d raw ∈ as) ∨ .clear d ∈ as →
    (s'.handler d).rm = (s.handler d).rm) :
    cacheOwner query unmarshal s' id n as = cacheOwner query unmarshal s id n as := by
  induction as with
  | nil => rfl
  | cons a as ih =>
    have ih := ih fun d hd => h d <| hd.imp
      (fun ⟨raw,hraw⟩ => ⟨raw,List.mem_cons_of_mem _ hraw⟩) (List.mem_cons_of_mem _)
    cases a with
    | recv d raw => simp only [cacheOwner,h d (.inl ⟨raw,List.mem_cons_self⟩),ih]
    | clear d => simp only [cacheOwner,h d (.inr List.mem_cons_self),ih]
    | _ => exact ih

end Owner

theorem cacheOwner_step (hrun : ServerRun query unmarshal as s) (h : step query unmarshal s a = some s') :
    cacheOwner query unmarshal s' id n (a :: as) = match a with
      | .recv d raw =>
        if (role query d = .device ∧ isOffer unmarshal raw = true) ∧
            id = roomID query d ∧ n = (s.handler d).rm then some d
        else cacheOwner query unmarshal s id n as
      | .clear d =>
        if (id = roomID query d ∧ n = (s.handler d).rm) ∧ role query d = .device then none
        else cacheOwner query unmarshal s id n as
      | _ => cacheOwner query unmarshal s id n as := by
  have hold : cacheOwner query unmarshal s' id n as = cacheOwner query unmarshal s id n as := by
    apply cacheOwner_congr
    intro d hd
    have hset : .set d ∈ as := hd.elim (fun ⟨_,hraw⟩ => set_mem_of_recv hrun hraw) (set_mem_of_clear hrun)
    apply step_rm h
    rintro rfl
    have hen := (step_eq_some.mp h).1
    have hrank := (set_mem_iff hrun d).mp hset
    simp only [enabled,decide_eq_true_eq] at hen
    simp [hen,Pc.rank] at hrank
  cases a with
  | recv d raw => simp only [cacheOwner,hold,step_rm h d (by simp)]
  | clear d => simp only [cacheOwner,hold,step_rm h d (by simp)]
  | _ => exact hold

/-- A handler that has registered does not hold a room object yet to be made. -/
theorem not_fresh_of_set (hrun : ServerRun query unmarshal as s) (hset : .set c ∈ as) {d : C}
    (hid : roomID query c = roomID query d) : (s.handler c).rm ≠ s.created (roomID query d) := by
  have hrank := (set_mem_iff hrun c).mp hset
  have hlt := (allocated hrun).held c (by omega)
  rw [hid] at hlt
  exact Nat.ne_of_lt hlt

theorem owner_of_cached (hrun : ServerRun query unmarshal as s) :
    (s.heap id n).offerCache ≠ none ↔ cacheOwner query unmarshal s id n as ≠ none := by
  induction hrun with
  | init => simp [State.start,cacheOwner]
  | @next as s s' a hrun hs ih =>
    rw [step_offerCache hs,cacheOwner_step hrun hs]
    cases a with
    | recv d raw =>
      simp only
      split
      · simp
      · exact ih
    | clear d =>
      simp only
      split
      · simp
      · exact ih
    | getOrCreate d =>
      simp only
      split
      · rename_i hfresh
        obtain ⟨_,rfl,rfl⟩ := hfresh
        cases hc : cacheOwner query unmarshal s (roomID query d) (s.created (roomID query d)) as with
        | none => simp
        | some c =>
          obtain ⟨⟨raw,hraw⟩,⟨hid,hn⟩,_⟩ := cacheOwner_spec hc
          exact absurd hn.symm (not_fresh_of_set hrun (set_mem_of_recv hrun hraw) hid.symm)
      · exact ih
    | _ => exact ih

theorem not_replaced_of_slot (hrun : ServerRun query unmarshal as s) {ρ : Role}
    (hslot : (s.heap id n).slot ρ = some c) : ¬ Replaced query as s c := by
  rintro ⟨_,hne⟩
  have hlast := (lastSetter_of_slot hrun hslot).1
  obtain ⟨_,⟨rfl,rfl⟩,rfl⟩ := lastSetter_spec hlast
  exact hne hlast

theorem enqueued_recv_eq_none (hrun : ServerRun query unmarshal as s) {raw : Msg}
    (hen : enabled query s (.recv c raw) = true) :
    (∀ target, enqueued query unmarshal s (.recv c raw) target = none) ↔
      (unmarshal raw ≠ none → ∀ target,
        (s.roomOf query c).slot (Room.peerOf (role query c)) = some target →
          (s.send target).queue.isFull = true) := by
  constructor
  · intro h hmsg target hslot
    obtain ⟨m,hm⟩ := Option.ne_none_iff_exists'.mp hmsg
    have hsends : sends query unmarshal s (.recv c raw) = some (target,raw) := by
      simp [sends,hm,hslot]
    by_contra hfull
    rw [Bool.not_eq_true] at hfull
    have htakes : (s.send target).takes = true := by
      simp [SendChan.takes,open_of_sends hrun hen hsends,hfull]
    have hsome := enqueued_eq_some.mpr ⟨hsends,htakes⟩
    rw [h target] at hsome
    cases hsome
  · intro h target
    rw [Option.eq_none_iff_forall_ne_some]
    intro msg hsome
    obtain ⟨hsends,htakes⟩ := enqueued_eq_some.mp hsome
    simp only [sends] at hsends
    split at hsends
    · cases hsends
    · rename_i m hm
      obtain ⟨target',hslot,he⟩ := Option.map_eq_some_iff.mp hsends
      cases he
      have hfull := h (by simp [hm]) target hslot
      simp [SendChan.takes,hfull] at htakes

theorem OnlyCurrentSpeaks.owner_step (hrun : ServerRun query unmarshal as s)
    (h : OnlyCurrentSpeaks query unmarshal as s) (hacts : OnlyCurrentActs query unmarshal as s a)
    (hs : SignalServer.step query unmarshal s a = some s')
    (hc : cacheOwner query unmarshal s' id n (a :: as) = some c) :
    (s'.heap id n).slot .device = some c := by
  rw [cacheOwner_step hrun hs] at hc
  rw [step_slot hs]
  cases a with
  | recv d raw =>
    simp only at hc ⊢
    split at hc
    · rename_i hd
      obtain ⟨⟨hdev,hraw⟩,rfl,rfl⟩ := hd
      cases hc
      exact hacts.1 hdev hraw
    · exact (h.owner id n c hc).2
  | set d =>
    simp only at hc ⊢
    split
    · rename_i hd
      obtain ⟨⟨rfl,rfl⟩,hdev⟩ := hd
      have howner := (owner_of_cached hrun).mpr (by rw [hc]; simp)
      exact absurd (hacts hdev) howner
    · exact (h.owner id n c hc).2
  | clear d =>
    simp only at hc ⊢
    split at hc
    · cases hc
    · rename_i hd
      rw [if_neg hd]
      exact (h.owner id n c hc).2
  | getOrCreate d =>
    simp only at hc ⊢
    split
    · rename_i hfresh
      obtain ⟨_,rfl,rfl⟩ := hfresh
      obtain ⟨⟨raw,hraw⟩,⟨hid,hn⟩,_⟩ := cacheOwner_spec hc
      exact absurd hn.symm (not_fresh_of_set hrun (set_mem_of_recv hrun hraw) hid.symm)
    · exact (h.owner id n c hc).2
  | _ => exact (h.owner id n c hc).2

theorem OnlyCurrentSpeaks.step (hrun : ServerRun query unmarshal as s)
    (h : OnlyCurrentSpeaks query unmarshal as s) (hacts : OnlyCurrentActs query unmarshal as s a)
    (hs : SignalServer.step query unmarshal s a = some s') :
    OnlyCurrentSpeaks query unmarshal (a :: as) s' := by
  constructor
  · intro c raw as' t hsuf ht hrep target
    rcases List.suffix_cons_iff.mp hsuf with he | hsuf
    · cases he
      cases ht.unique hrun
      exact (enqueued_recv_eq_none hrun (step_eq_some.mp hs).1).mpr (hacts.2 hrep) target
    · exact h.silent c raw as' t hsuf ht hrep target
  · intro id n c hc
    have hslot := h.owner_step hrun hacts hs hc
    exact ⟨not_replaced_of_slot (.next hrun hs) hslot,hslot⟩

/-- A step that does not meet the condition lets a connection be heard that is not the current one. -/
theorem OnlyCurrentSpeaks.acts (hrun : ServerRun query unmarshal as s)
    (hs : SignalServer.step query unmarshal s a = some s')
    (h : OnlyCurrentSpeaks query unmarshal (a :: as) s') : OnlyCurrentActs query unmarshal as s a := by
  have hen := (step_eq_some.mp hs).1
  cases a with
  | set d =>
    intro hdev
    by_contra hcached
    obtain ⟨c,hc⟩ := Option.ne_none_iff_exists'.mp ((owner_of_cached hrun).mp hcached)
    have hset : .set d ∉ as := by
      simp only [enabled,decide_eq_true_eq] at hen
      rw [set_mem_iff hrun d,hen]
      simp [Pc.rank]
    obtain ⟨⟨raw,hraw⟩,_⟩ := cacheOwner_spec hc
    have hslot := (h.owner _ _ c (by rw [cacheOwner_step hrun hs]; exact hc)).2
    rw [step_slot hs] at hslot
    simp only [hdev,and_self,if_true,Option.some.injEq] at hslot
    subst hslot
    exact hset (set_mem_of_recv hrun hraw)
  | recv d raw =>
    constructor
    · intro hdev hraw
      have hslot := (h.owner (roomID query d) (s.handler d).rm d (by
        rw [cacheOwner_step hrun hs]
        simp [hdev,hraw])).2
      rwa [step_slot hs] at hslot
    · intro hrep
      exact (enqueued_recv_eq_none hrun hen).mp (h.silent d raw as s (List.suffix_refl _) hrun hrep)
  | _ => trivial

/-- In all states that a run passes through only the current connections are heard exactly if all of
its steps are taken as `OnlyCurrentActs` says. -/
theorem only_current_speaks_iff (hrun : ServerRun query unmarshal as s) :
    Always (step query unmarshal) State.start (OnlyCurrentSpeaks query unmarshal) as ↔
      GuardedRun (step query unmarshal) State.start (OnlyCurrentActs query unmarshal) as s := by
  apply hrun.always_iff_guarded
  · refine ⟨fun c raw as' s' hsuf => ?_,fun id n c hc => by cases hc⟩
    exact absurd (List.suffix_nil.mp hsuf) (by simp)
  · intro as s a s' hg hspeaks hs
    exact ⟨fun hc => hspeaks.step hg.run hc hs,fun hp => hp.acts hg.run hs⟩

end Machine

/-- A device sends an offer and reconnects while its old connection is still open. -/
def offerAndReconnect : List (Action ℕ String) :=
  [.connect 0,.getOrCreate 0,.set 0,.setName 0 1,.spawnPump 0,.recv 0 "offer",
    .connect 1,.getOrCreate 1,.set 1]

theorem only_current_speaks_iff_reconnect :
    ∃ s, ServerRun deviceQuery (fun type => some ⟨type⟩) offerAndReconnect.reverse s ∧
      (Always (step deviceQuery fun type => some ⟨type⟩) State.start
          (OnlyCurrentSpeaks deviceQuery fun type => some ⟨type⟩) offerAndReconnect.reverse ↔
        GuardedRun (step deviceQuery fun type => some ⟨type⟩) State.start
          (OnlyCurrentActs deviceQuery fun type => some ⟨type⟩) offerAndReconnect.reverse s) := by
  obtain ⟨s,hrun,_⟩ := exists_run_of_replay (step deviceQuery fun type => some ⟨type⟩) State.start
    offerAndReconnect (fun _ => true) (by decide)
  exact ⟨s,hrun,only_current_speaks_iff hrun⟩

/-- The offer of the replaced connection 0 stays in the cache. -/
theorem replaced_device_offer_cached :
    ¬ ∀ as s, ServerRun deviceQuery (fun type : String => some ⟨type⟩) as s →
      OnlyCurrentSpeaks deviceQuery (fun type => some ⟨type⟩) as s := by
  intro h
  obtain ⟨s,hrun,hp⟩ := exists_run_of_replay (step deviceQuery fun type => some ⟨type⟩) State.start
    offerAndReconnect (fun s => cacheOwner deviceQuery (fun type => some ⟨type⟩) s "kvm-room-1" 0
        offerAndReconnect.reverse = some 0 ∧ (s.heap "kvm-room-1" 0).slot .device = some 1) (by decide)
  obtain ⟨howner,hslot⟩ := of_decide_eq_true hp
  have h₀ := ((h _ s hrun).owner _ _ _ howner).2
  rw [hslot] at h₀
  cases h₀

end SignalServer
end AnyKvm
