import AnyKvm.SlotOwnership

/-! When rooms leave the registry.
A slot only holds a connection that has not yet run its cleanup, so the last handler of an id to
finish finds both slots free, whichever room object is listed by then. -/
namespace AnyKvm
namespace SignalServer

open Transition

/-- The handler has looked up its room and has not yet finished. -/
def Pc.Unfinished (pc : Pc) : Prop := 2 ≤ pc.rank ∧ pc.rank ≤ 9

section Machine
variable {C Msg : Type*} [DecidableEq C] {query : C → Query} {unmarshal : Msg → Option SignalMsg}
variable {as : List (Action C Msg)} {s s' : State C Msg} {a : Action C Msg}

/-- Every listed room has a handler of its id that has yet to call `tryDelete`. -/
def Tended (query : C → Query) (s : State C Msg) : Prop :=
  ∀ id, s.rooms id ≠ none → ∃ c, roomID query c = id ∧ (s.handler c).pc.Unfinished

theorem unfinished_step (h : step query unmarshal s a = some s') {c : C}
    (hc : (s.handler c).pc.Unfinished) (hne : a ≠ .tryDelete c) : (s'.handler c).pc.Unfinished := by
  refine ⟨(step_rank h c).found.mpr (.inr hc.1),?_⟩
  by_contra hlt
  have hdone := ((step_rank h c).done.mp (by omega)).resolve_left hne
  have := hc.2
  omega

theorem registered_of_slot (h : ServerRun query unmarshal as s) {id : String} {n : ℕ} {ρ : Role} {c : C}
    (hslot : (s.heap id n).slot ρ = some c) : roomID query c = id ∧ (s.handler c).pc.Registered := by
  obtain ⟨hlast,hclear⟩ := lastSetter_of_slot h hslot
  obtain ⟨hset,⟨hid,_⟩,_⟩ := lastSetter_spec hlast
  exact ⟨hid.symm,(registered_iff h c).mpr ⟨hset,hclear⟩⟩

omit [DecidableEq C] in
theorem exists_slot_of_not_isEmpty {r : Room C Msg} (h : r.isEmpty = false) :
    ∃ ρ c, r.slot ρ = some c := by
  cases hdev : r.device with
  | some d => exact ⟨.device,d,hdev⟩
  | none =>
    cases hcli : r.client with
    | some c => exact ⟨.client,c,hcli⟩
    | none => simp [Room.isEmpty,hdev,hcli] at h

theorem Tended.step (hrun : ServerRun query unmarshal as s) (h : Tended query s)
    (hs : step query unmarshal s a = some s') : Tended query s' := by
  intro id hlisted
  rw [step_rooms hs] at hlisted
  have keep : ∀ {c}, roomID query c = id → (s.handler c).pc.Unfinished → a ≠ .tryDelete c →
      ∃ c, roomID query c = id ∧ (s'.handler c).pc.Unfinished :=
    fun hid hc hne => ⟨_,hid,unfinished_step hs hc hne⟩
  cases a with
  | getOrCreate c =>
    by_cases hid : id = roomID query c
    · have hpc := step_pc hs
      simp only [Action.actor,Action.next] at hpc
      exact ⟨c,hid.symm,by simp [hpc,Pc.Unfinished,Pc.rank]⟩
    · simp only [hid,if_false] at hlisted
      obtain ⟨d,hd,hpc⟩ := h id hlisted
      exact keep hd hpc (by simp)
  | tryDelete c =>
    simp only at hlisted
    split at hlisted
    · exact absurd rfl hlisted
    · rename_i hkept
      obtain ⟨d,hd,hpc⟩ := h id hlisted
      by_cases hdc : d = c
      · subst hdc
        obtain ⟨n,hn⟩ := Option.ne_none_iff_exists'.mp hlisted
        have hfull : (s.heap id n).isEmpty = false := by
          rw [← Bool.not_eq_true]
          intro hempty
          exact hkept ⟨hd.symm,n,by rw [hd]; exact hn,by rw [hd]; exact hempty⟩
        obtain ⟨ρ,e,hslot⟩ := exists_slot_of_not_isEmpty hfull
        obtain ⟨he,hreg⟩ := registered_of_slot hrun hslot
        have hed : e ≠ d := by
          rintro rfl
          have hen := (step_eq_some.mp hs).1
          simp only [enabled,decide_eq_true_eq] at hen
          simp [hen,Pc.Registered,Pc.rank] at hreg
        refine keep he ⟨by have := hreg.1; omega,by have := hreg.2; omega⟩ ?_
        simpa using hed.symm
      · exact keep hd hpc (by simpa using Ne.symm hdc)
  | _ =>
    obtain ⟨d,hd,hpc⟩ := h id hlisted
    exact keep hd hpc (by simp)

theorem tended (h : ServerRun query unmarshal as s) : Tended query s := by
  refine h.invariant (P := fun _ s => Tended query s) (fun id hid => absurd rfl hid) ?_
  intro as s a s' hrun ih hs
  exact ih.step hrun hs

/-- Once every handler that has connected is done, the registry is empty. -/
theorem rooms_removed (h : ServerRun query unmarshal as s)
    (hdone : ∀ c, (s.handler c).pc = .absent ∨ (s.handler c).pc = .done) (id : String) :
    s.rooms id = none := by
  by_contra hlisted
  obtain ⟨c,_,hc⟩ := tended h id hlisted
  rcases hdone c with hpc | hpc <;> simp [hpc,Pc.Unfinished,Pc.rank] at hc

end Machine

/-- Both connections of a reconnected device come and go. -/
def reconnectAndFinish : List (Action ℕ String) :=
  reconnect ++ [.closeSend 0,.tryDelete 0,.clear 1,.closeSend 1,.tryDelete 1]

theorem rooms_removed_reconnect :
    ∃ s, ServerRun deviceQuery (fun _ : String => none) reconnectAndFinish.reverse s ∧
      s.rooms "kvm-room-1" = none := by
  obtain ⟨s,hrun,hp⟩ := exists_run_of_replay (step deviceQuery fun _ => none) State.start
    reconnectAndFinish (fun s => (s.handler 0).pc = .done ∧ (s.handler 1).pc = .done) (by decide)
  obtain ⟨h₀,h₁⟩ := of_decide_eq_true hp
  refine ⟨s,hrun,rooms_removed hrun (fun c => ?_) _⟩
  match c with
  | 0 => exact .inr h₀
  | 1 => exact .inr h₁
  | c + 2 =>
    left
    have hacted : ∀ a ∈ reconnectAndFinish.reverse, a.actor < 2 := by decide
    exact absent_of_not_acted hrun fun a ha => by have := hacted a ha; omega

end SignalServer
end AnyKvm
