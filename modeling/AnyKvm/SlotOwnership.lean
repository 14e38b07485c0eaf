import AnyKvm.HandlerLifecycle

/-! Which connection occupies a slot of a room.
`set` overwrites a slot and `clear` empties it without asking who is in it, so the
newest connection of a role keeps its slot exactly as long as no connection that it
has replaced runs its cleanup. -/
namespace AnyKvm
namespace SignalServer

open Transition

section Machine
variable {C Msg : Type*} [DecidableEq C] (query : C → Query) (unmarshal : Msg → Option SignalMsg)

/-- The connection that most recently executed `set` for a role on a room object. -/
def lastSetter (s : State C Msg) (id : String) (n : ℕ) (ρ : Role) : List (Action C Msg) → Option C
  | [] => none
  | .set c :: as =>
    if (id = roomID query c ∧ n = (s.handler c).rm) ∧ role query c = ρ then some c
    else lastSetter s id n ρ as
  | _ :: as => lastSetter s id n ρ as

/-- The latest offer that a device connection has forwarded. -/
def lastOffer (c : C) : List (Action C Msg) → Option Msg
  | [] => none
  | .recv d raw :: as =>
    if d = c ∧ role query d = .device ∧ isOffer unmarshal raw = true then some raw else lastOffer c as
  | _ :: as => lastOffer c as

/-- A connection that set a slot last, and has not run its own cleanup, is still in that slot,
and the latest offer it has forwarded is still in the cache. -/
def CurrentKept (as : List (Action C Msg)) (s : State C Msg) : Prop :=
  ∀ id n ρ c, lastSetter query s id n ρ as = some c → .clear c ∉ as →
    (s.heap id n).slot ρ = some c ∧
      ∀ offer, lastOffer query unmarshal c as = some offer → (s.heap id n).offerCache = some offer

/-- No connection acts on a slot that a newer connection has taken from it: it does not run its
cleanup then, and it forwards no offer other than the newer device's own latest one. -/
def NoStaleStep (as : List (Action C Msg)) (s : State C Msg) : Action C Msg → Prop
  | .clear c => ∀ d, (s.roomOf query c).slot (role query c) = some d → d = c
  | .recv c raw => role query c = .device → isOffer unmarshal raw = true →
      ∀ d, (s.roomOf query c).device = some d → d ≠ c →
        ∀ offer, lastOffer query unmarshal d as = some offer → offer = raw
  | _ => True

variable {query unmarshal} {as : List (Action C Msg)} {s s' : State C Msg} {a : Action C Msg}
variable {id : String} {n : ℕ} {ρ : Role} {c : C}

section Setter
omit [DecidableEq C]

theorem lastSetter_spec (h : lastSetter query s id n ρ as = some c) :
    .set c ∈ as ∧ (id = roomID query c ∧ n = (s.handler c).rm) ∧ role query c = ρ := by
  induction as with
  | nil => cases h
  | cons a as ih =>
    cases a with
    | set d =>
      simp only [lastSetter] at h
      split at h
      · rename_i hd
        cases h
        exact ⟨List.mem_cons_self,hd⟩
      · exact ⟨List.mem_cons_of_mem _ (ih h).1,(ih h).2⟩
    | _ => exact ⟨List.mem_cons_of_mem _ (ih h).1,(ih h).2⟩

theorem lastSetter_congr (h : ∀ d, .set d ∈ as → (s'.handler d).rm = (s.handler d).rm) :
    lastSetter query s' id n ρ as = lastSetter query s id n ρ as := by
  induction as with
  | nil => rfl
  | cons a as ih =>
    have ih := ih fun d hd => h d (List.mem_cons_of_mem _ hd)
    cases a with
    | set d => simp only [lastSetter,h d List.mem_cons_self,ih]
    | _ => exact ih

end Setter

theorem lastSetter_step (hrun : ServerRun query unmarshal as s) (h : step query unmarshal s a = some s') :
    lastSetter query s' id n ρ (a :: as) = match a with
      | .set d =>
        if (id = roomID query d ∧ n = (s.handler d).rm) ∧ role query d = ρ then some d
        else lastSetter query s id n ρ as
      | _ => lastSetter query s id n ρ as := by
  have hold : lastSetter query s' id n ρ as = lastSetter query s id n ρ as := by
    apply lastSetter_congr
    intro d hd
    apply step_rm h
    rintro rfl
    have hen := (step_eq_some.mp h).1
    have hrank := (set_mem_iff hrun d).mp hd
    simp only [enabled,decide_eq_true_eq] at hen
    simp [hen,Pc.rank] at hrank
  cases a with
  | set d => simp only [lastSetter,hold,step_rm h d (by simp)]
  | _ => exact hold

/-- Only handlers in their read loop or beyond it have forwarded anything. -/
theorem lastOffer_spec (hrun : ServerRun query unmarshal as s) {offer : Msg}
    (h : lastOffer query unmarshal c as = some offer) :
    role query c = .device ∧ 7 ≤ (s.handler c).pc.rank := by
  induction hrun with
  | init => cases h
  | @next as s s' a hrun hs ih =>
    by_cases hc : c = a.actor
    · have hpc := step_pc hs
      have hen := (step_eq_some.mp hs).1
      subst hc
      cases a with
      | recv d raw =>
        simp only [Action.actor,Action.next,enabled,decide_eq_true_eq] at hpc hen h ⊢
        rw [hpc,hen]
        by_cases hr : role query d = .device
        · exact ⟨hr,le_rfl⟩
        · simp only [lastOffer,hr,false_and,and_false,if_false] at h
          exact absurd (ih h).1 hr
      | _ =>
        have ih := ih h
        simp_all [enabled,Action.actor,Action.next,Pc.rank]
    · rw [step_handler_ne hs hc]
      apply ih
      cases a with
      | recv d raw =>
        have hd : d ≠ c := fun hd => hc hd.symm
        simpa [lastOffer,hd] using h
      | _ => exact h

theorem lastSetter_of_slot (hrun : ServerRun query unmarshal as s) (h : (s.heap id n).slot ρ = some c) :
    lastSetter query s id n ρ as = some c ∧ .clear c ∉ as := by
  induction hrun with
  | init => cases ρ <;> cases h
  | @next as s s' a hrun hs ih =>
    rw [step_slot hs] at h
    rw [lastSetter_step hrun hs]
    cases a with
    | set d =>
      simp only at h ⊢
      split
      · rename_i hd
        rw [if_pos hd] at h
        cases h
        refine ⟨rfl,?_⟩
        have hen := (step_eq_some.mp hs).1
        simp only [enabled,decide_eq_true_eq] at hen
        rw [List.mem_cons,clear_mem_iff hrun,hen]
        simp [Pc.rank]
      · rename_i hd
        rw [if_neg hd] at h
        simpa using ih h
    | clear d =>
      simp only at h ⊢
      split at h
      · cases h
      · rename_i hd
        have ih := ih h
        refine ⟨ih.1,?_⟩
        have hdc : d ≠ c := by
          rintro rfl
          exact hd (lastSetter_spec ih.1).2
        simpa [hdc.symm] using ih.2
    | getOrCreate d =>
      simp only at h ⊢
      split at h
      · cases h
      · simpa using ih h
    | _ => simpa using ih h

theorem CurrentKept.set (hrun : ServerRun query unmarshal as s) (hkept : CurrentKept query unmarshal as s) {d : C}
    (hs : step query unmarshal s (.set d) = some s') : CurrentKept query unmarshal (.set d :: as) s' := by
  intro id n ρ c hlast hclear
  rw [lastSetter_step hrun hs] at hlast
  rw [step_slot hs,step_offerCache hs]
  simp only [lastOffer] at hlast ⊢
  split at hlast
  · rename_i hd
    cases hlast
    refine ⟨if_pos hd,fun offer hoffer => ?_⟩
    have hrank := (lastOffer_spec hrun hoffer).2
    have hen := (step_eq_some.mp hs).1
    simp only [enabled,decide_eq_true_eq] at hen
    simp [hen,Pc.rank] at hrank
  · rename_i hd
    rw [if_neg hd]
    exact hkept _ _ _ _ hlast fun h => hclear (List.mem_cons_of_mem _ h)

theorem CurrentKept.clear (hrun : ServerRun query unmarshal as s) (hkept : CurrentKept query unmarshal as s) {d : C}
    (hstale : NoStaleStep query unmarshal as s (.clear d)) (hs : step query unmarshal s (.clear d) = some s') :
    CurrentKept query unmarshal (.clear d :: as) s' := by
  intro id n ρ c hlast hclear
  rw [lastSetter_step hrun hs] at hlast
  rw [step_slot hs,step_offerCache hs]
  simp only [lastOffer] at hlast ⊢
  obtain ⟨hslot,hcache⟩ := hkept _ _ _ _ hlast fun h => hclear (List.mem_cons_of_mem _ h)
  have hne : c ≠ d := by rintro rfl; exact hclear List.mem_cons_self
  have hd : ¬ ((id = roomID query d ∧ n = (s.handler d).rm) ∧ role query d = ρ) := by
    rintro ⟨⟨rfl,rfl⟩,rfl⟩
    exact hne (hstale c hslot)
  rw [if_neg hd]
  refine ⟨hslot,fun offer hoffer => ?_⟩
  have hρ : role query c = ρ := (lastSetter_spec hlast).2.2
  rw [(lastOffer_spec hrun hoffer).1] at hρ
  subst hρ
  rw [if_neg hd]
  exact hcache offer hoffer

/-- The message is an offer of the connection itself, or its sender would be a replaced one. -/
theorem CurrentKept.recv (hrun : ServerRun query unmarshal as s) (hkept : CurrentKept query unmarshal as s) {d : C}
    {raw : Msg} (hstale : NoStaleStep query unmarshal as s (.recv d raw))
    (hs : step query unmarshal s (.recv d raw) = some s') :
    CurrentKept query unmarshal (.recv d raw :: as) s' := by
  intro id n ρ c hlast hclear
  rw [lastSetter_step hrun hs] at hlast
  rw [step_slot hs,step_offerCache hs]
  simp only at hlast ⊢
  obtain ⟨hslot,hcache⟩ := hkept _ _ _ _ hlast fun h => hclear (List.mem_cons_of_mem _ h)
  obtain ⟨_,⟨rfl,rfl⟩,hρ⟩ := lastSetter_spec hlast
  refine ⟨hslot,fun offer hoffer => ?_⟩
  simp only [lastOffer] at hoffer
  by_cases hd : d = c
  · subst hd
    by_cases hr : role query d = .device ∧ isOffer unmarshal raw = true
    · rw [if_pos ⟨rfl,hr⟩] at hoffer
      rw [if_pos ⟨hr,rfl,rfl⟩]
      exact hoffer
    · rw [if_neg (fun h => hr h.2)] at hoffer
      rw [if_neg (fun h => hr h.1)]
      exact hcache offer hoffer
  · rw [if_neg (fun h => hd h.1)] at hoffer
    split
    · rename_i hr
      obtain ⟨⟨hdev,hraw⟩,hid,hn⟩ := hr
      have hdevice := (lastOffer_spec hrun hoffer).1
      rw [← hρ,hdevice,hid,hn] at hslot
      rw [hstale hdev hraw c hslot (Ne.symm hd) offer hoffer]
    · exact hcache offer hoffer

/-- A room object just made is nobody's yet. -/
theorem CurrentKept.getOrCreate (hrun : ServerRun query unmarshal as s) (hkept : CurrentKept query unmarshal as s)
    {d : C} (hs : step query unmarshal s (.getOrCreate d) = some s') :
    CurrentKept query unmarshal (.getOrCreate d :: as) s' := by
  intro id n ρ c hlast hclear
  rw [lastSetter_step hrun hs] at hlast
  rw [step_slot hs,step_offerCache hs]
  simp only [lastOffer] at hlast ⊢
  obtain ⟨hset,⟨rfl,rfl⟩,_⟩ := lastSetter_spec hlast
  have hrank : 2 ≤ (s.handler c).pc.rank := by have := (set_mem_iff hrun c).mp hset; omega
  have hlt := (allocated hrun).held c hrank
  have hd : ¬ (s.rooms (roomID query d) = none ∧ roomID query c = roomID query d ∧
      (s.handler c).rm = s.created (roomID query d)) := by
    rintro ⟨_,hid,hn⟩
    rw [hid] at hlt
    omega
  rw [if_neg hd,if_neg hd]
  exact hkept _ _ _ _ hlast fun h => hclear (List.mem_cons_of_mem _ h)

theorem CurrentKept.step (hrun : ServerRun query unmarshal as s) (hkept : CurrentKept query unmarshal as s)
    (hstale : NoStaleStep query unmarshal as s a) (hs : step query unmarshal s a = some s') :
    CurrentKept query unmarshal (a :: as) s' := by
  cases a with
  | set d => exact hkept.set hrun hs
  | clear d => exact hkept.clear hrun hstale hs
  | recv d raw => exact hkept.recv hrun hstale hs
  | getOrCreate d => exact hkept.getOrCreate hrun hs
  | _ =>
    intro id n ρ c hlast hclear
    rw [lastSetter_step hrun hs] at hlast
    rw [step_slot hs,step_offerCache hs]
    exact hkept _ _ _ _ hlast fun h => hclear (List.mem_cons_of_mem _ h)

theorem CurrentKept.noStaleStep (hrun : ServerRun query unmarshal as s)
    (hs : SignalServer.step query unmarshal s a = some s') (hkept : CurrentKept query unmarshal (a :: as) s') :
    NoStaleStep query unmarshal as s a := by
  cases a with
  | clear c =>
    intro d hslot
    by_contra hne
    obtain ⟨hlast,hclear⟩ := lastSetter_of_slot hrun hslot
    have hnew : lastSetter query s' (roomID query c) (s.handler c).rm (role query c) (.clear c :: as) =
        some d := by rw [lastSetter_step hrun hs]; exact hlast
    have h := (hkept _ _ _ _ hnew (by simpa [hne] using hclear)).1
    rw [step_slot hs] at h
    simp at h
  | recv c raw =>
    intro hdev hraw d hslot hne offer hoffer
    obtain ⟨hlast,hclear⟩ := lastSetter_of_slot (ρ := .device) hrun hslot
    have hnew : lastSetter query s' (roomID query c) (s.handler c).rm .device (.recv c raw :: as) =
        some d := by rw [lastSetter_step hrun hs]; exact hlast
    have h := (hkept _ _ _ _ hnew (by simpa using hclear)).2 offer (by simpa [lastOffer,hne.symm] using hoffer)
    rw [step_offerCache hs] at h
    simp only [hdev,hraw,and_self,if_true,Option.some.injEq] at h
    exact h.symm
  | _ => trivial

/-- A run keeps every current connection in its slot, with its offer in the cache, in all the states
it passes through exactly if no step of it is taken by a connection that has been replaced. -/
theorem current_kept_iff (hrun : ServerRun query unmarshal as s) :
    Always (step query unmarshal) State.start (CurrentKept query unmarshal) as ↔
      GuardedRun (step query unmarshal) State.start (NoStaleStep query unmarshal) as s := by
  apply hrun.always_iff_guarded
  · intro id n ρ c h
    cases h
  · intro as s a s' hg hkept hs
    exact ⟨fun hc => hkept.step hg.run hc hs,fun hk => hk.noStaleStep hg.run hs⟩

end Machine

/-- Connections that all open the device role of one room. -/
def deviceQuery (_ : ℕ) : Query := ⟨"kvm-room-1","device",""⟩

/-- A device reconnects, and only then does the server notice that its old socket is dead. -/
def reconnect : List (Action ℕ String) :=
  [.connect 0,.getOrCreate 0,.set 0,.setName 0 1,.spawnPump 0,
    .connect 1,.getOrCreate 1,.set 1,.setName 1 2,.spawnPump 1,.clear 0]

theorem current_kept_iff_reconnect :
    ∃ s, ServerRun deviceQuery (fun _ => none) reconnect.reverse s ∧
      (Always (step deviceQuery fun _ => none) State.start (CurrentKept deviceQuery fun _ => none)
          reconnect.reverse ↔
        GuardedRun (step deviceQuery fun _ => none) State.start (NoStaleStep deviceQuery fun _ => none)
          reconnect.reverse s) := by
  obtain ⟨s,hrun,_⟩ := exists_run_of_replay (step deviceQuery fun _ => none) State.start
    reconnect (fun _ => true) (by decide)
  exact ⟨s,hrun,current_kept_iff hrun⟩

/-- The late cleanup of the replaced connection 0 evicts connection 1. -/
theorem replaced_device_evicts_newer :
    ¬ ∀ as s, ServerRun deviceQuery (fun _ : String => none) as s →
      CurrentKept deviceQuery (fun _ => none) as s := by
  intro h
  obtain ⟨s,hrun,hp⟩ := exists_run_of_replay (step deviceQuery fun _ => none) State.start reconnect
    (fun s => lastSetter deviceQuery s "kvm-room-1" 0 .device reconnect.reverse = some 1 ∧
      (s.heap "kvm-room-1" 0).slot .device = none) (by decide)
  obtain ⟨hlast,hslot⟩ := of_decide_eq_true hp
  have hkept := (h _ s hrun _ _ _ _ hlast (by decide)).1
  rw [hslot] at hkept
  cases hkept

end SignalServer
end AnyKvm
