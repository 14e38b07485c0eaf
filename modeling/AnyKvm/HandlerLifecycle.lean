import AnyKvm.SignalServer

/-! The order in which a handler performs its critical sections, and what follows
for the history of a run and for the room objects that handlers hold. -/
namespace AnyKvm
namespace SignalServer

open Transition

/-- Handlers run through their program points in this order. -/
def Pc.rank : Pc → ℕ
  | .absent => 0 | .upgraded => 1 | .found => 2 | .registered => 3 | .named => 4 | .spawned => 5
  | .cacheRead => 6 | .reading => 7 | .cleared => 8 | .closed => 9 | .done => 10

/-- The handler has looked up its room and has not yet run its cleanup. -/
def Pc.Alive (pc : Pc) : Prop := 2 ≤ pc.rank ∧ pc.rank ≤ 7

/-- The handler has registered with `set` and has not yet run its cleanup. -/
def Pc.Registered (pc : Pc) : Prop := 3 ≤ pc.rank ∧ pc.rank ≤ 7

instance (pc : Pc) : Decidable pc.Alive := inferInstanceAs (Decidable (_ ∧ _))

instance (pc : Pc) : Decidable pc.Registered := inferInstanceAs (Decidable (_ ∧ _))

theorem Pc.Registered.alive {pc : Pc} (h : pc.Registered) : pc.Alive := ⟨by have := h.1; omega,h.2⟩

theorem Pc.Alive.registered_or {pc : Pc} (h : pc.Alive) : pc.Registered ∨ pc = .found := by
  cases pc <;> simp_all [Pc.Alive,Pc.Registered,Pc.rank]

section Machine
variable {C Msg : Type*} [DecidableEq C] {query : C → Query} {unmarshal : Msg → Option SignalMsg}
variable {as : List (Action C Msg)} {s s' : State C Msg} {a : Action C Msg}

/-- The actions that take a handler across the ranks 2, 3, 8, 9 and 10. -/
structure RankStep (s s' : State C Msg) (a : Action C Msg) (c : C) : Prop where
  found : 2 ≤ (s'.handler c).pc.rank ↔ a = .getOrCreate c ∨ 2 ≤ (s.handler c).pc.rank
  set : 3 ≤ (s'.handler c).pc.rank ↔ a = .set c ∨ 3 ≤ (s.handler c).pc.rank
  clear : 8 ≤ (s'.handler c).pc.rank ↔ a = .clear c ∨ 8 ≤ (s.handler c).pc.rank
  closed : 9 ≤ (s'.handler c).pc.rank ↔ a = .closeSend c ∨ 9 ≤ (s.handler c).pc.rank
  done : 10 ≤ (s'.handler c).pc.rank ↔ a = .tryDelete c ∨ 10 ≤ (s.handler c).pc.rank

theorem step_rank (h : step query unmarshal s a = some s') (c : C) : RankStep s s' a c := by
  by_cases hc : c = a.actor
  · have hpc := step_pc h
    have hen := (step_eq_some.mp h).1
    subst hc
    constructor <;> rw [hpc] <;> cases a with
    | spawnPump d =>
      simp only [enabled,decide_eq_true_eq] at hen
      rcases hen with hen | hen <;> by_cases hr : role query d = .client <;>
        simp_all [Action.actor,Action.next,Pc.rank]
    | _ => simp_all [enabled,Action.actor,Action.next,Pc.rank]
  · have hother : ∀ (b : Action C Msg) (n : ℕ), b.actor = c →
        (n ≤ (s'.handler c).pc.rank ↔ a = b ∨ n ≤ (s.handler c).pc.rank) := by
      intro b n hb
      have hne : a ≠ b := by
        rintro rfl
        exact hc hb.symm
      simp [step_handler_ne h hc,hne]
    exact ⟨hother _ _ rfl,hother _ _ rfl,hother _ _ rfl,hother _ _ rfl,hother _ _ rfl⟩

theorem ne_getOrCreate_of_rank (h : step query unmarshal s a = some s') {c : C} (hc : 2 ≤ (s.handler c).pc.rank) :
    a ≠ .getOrCreate c := by
  rintro rfl
  have hen := (step_eq_some.mp h).1
  simp only [enabled,decide_eq_true_eq] at hen
  rw [hen] at hc
  exact absurd hc (by decide)

theorem rank_step (h : step query unmarshal s a = some s') (c : C) :
    (s.handler c).pc.rank ≤ (s'.handler c).pc.rank ∧
      ((s'.handler c).pc.rank = 6 → a = .readCache c ∨ (s.handler c).pc.rank = 6) := by
  by_cases hc : c = a.actor
  · have hpc := step_pc h
    have hen := (step_eq_some.mp h).1
    subst hc
    rw [hpc]
    cases a with
    | spawnPump d =>
      simp only [enabled,decide_eq_true_eq] at hen
      rcases hen with hen | hen <;> by_cases hr : role query d = .client <;>
        simp_all [Action.actor,Action.next,Pc.rank]
    | _ => simp_all [enabled,Action.actor,Action.next,Pc.rank]
  · rw [step_handler_ne h hc]
    exact ⟨le_rfl,.inr⟩

theorem found_of_registered_step (h : step query unmarshal s a = some s') {c : C}
    (hc : 3 ≤ (s'.handler c).pc.rank) :
    2 ≤ (s.handler c).pc.rank := by
  rcases (step_rank h c).set.mp hc with rfl | h3
  · have hen := (step_eq_some.mp h).1
    simp only [enabled,decide_eq_true_eq] at hen
    rw [hen]
    decide
  · omega

theorem history_iff (h : ServerRun query unmarshal as s) (c : C) :
    (.set c ∈ as ↔ 3 ≤ (s.handler c).pc.rank) ∧ (.clear c ∈ as ↔ 8 ≤ (s.handler c).pc.rank) := by
  refine h.invariant (P := fun as s => (.set c ∈ as ↔ 3 ≤ (s.handler c).pc.rank) ∧
    (.clear c ∈ as ↔ 8 ≤ (s.handler c).pc.rank)) (by simp [State.start,Pc.rank]) ?_
  intro as s a s' _ ih hs
  rw [(step_rank hs c).set,(step_rank hs c).clear,List.mem_cons,List.mem_cons,ih.1,ih.2]
  exact ⟨or_congr_left eq_comm,or_congr_left eq_comm⟩

theorem set_mem_iff (h : ServerRun query unmarshal as s) (c : C) :
    .set c ∈ as ↔ 3 ≤ (s.handler c).pc.rank :=
  (history_iff h c).1

theorem clear_mem_iff (h : ServerRun query unmarshal as s) (c : C) :
    .clear c ∈ as ↔ 8 ≤ (s.handler c).pc.rank :=
  (history_iff h c).2

theorem registered_iff (h : ServerRun query unmarshal as s) (c : C) :
    (s.handler c).pc.Registered ↔ .set c ∈ as ∧ .clear c ∉ as := by
  rw [set_mem_iff h,clear_mem_iff h,Pc.Registered]
  omega

theorem absent_of_not_acted (h : ServerRun query unmarshal as s) {c : C} (hc : ∀ a ∈ as, c ≠ a.actor) :
    (s.handler c).pc = .absent := by
  induction h with
  | init => rfl
  | next _ hs ih =>
    rw [step_handler_ne hs (hc _ List.mem_cons_self)]
    exact ih fun a ha => hc a (List.mem_cons_of_mem _ ha)

/-- Room objects are named below the number created under their id. -/
structure Allocated (query : C → Query) (s : State C Msg) : Prop where
  held : ∀ c, 2 ≤ (s.handler c).pc.rank → (s.handler c).rm < s.created (roomID query c)
  listed : ∀ id n, s.rooms id = some n → n < s.created id

theorem created_le (h : step query unmarshal s a = some s') (id : String) :
    s.created id ≤ s'.created id := by
  obtain ⟨_,rfl⟩ := step_eq_some.mp h
  cases a with
  | getOrCreate c =>
    simp only [perform,getOrCreate_created]
    split <;> omega
  | _ => simp [perform]

theorem allocated (h : ServerRun query unmarshal as s) : Allocated query s := by
  refine h.invariant (P := fun _ s => Allocated query s)
    ⟨by simp [State.start,Pc.rank],by simp [State.start]⟩ ?_
  intro as s a s' _ ih hs
  have hle := created_le hs
  have hlisted : ∀ id n, s'.rooms id = some n → n < s'.created id := by
    intro id n hn
    rw [step_rooms hs] at hn
    cases a with
    | getOrCreate c =>
      obtain ⟨_,rfl⟩ := step_eq_some.mp hs
      simp only [perform,getOrCreate_created] at hle ⊢
      by_cases hid : id = roomID query c
      · subst hid
        cases hr : s.rooms (roomID query c) with
        | none => simp [hr] at hn ⊢; omega
        | some m =>
          have := ih.listed _ _ hr
          simp [hr] at hn ⊢; omega
      · simp only [hid,if_false] at hn
        exact (ih.listed _ _ hn).trans_le (hle id)
    | tryDelete c =>
      simp only at hn
      split at hn
      · cases hn
      · exact (ih.listed _ _ hn).trans_le (hle id)
    | _ => exact (ih.listed _ _ hn).trans_le (hle id)
  refine ⟨?_,hlisted⟩
  intro c hc
  by_cases hg : a = .getOrCreate c
  · subst hg
    have hroom := step_rooms hs (roomID query c)
    simp only [if_true] at hroom
    obtain ⟨_,rfl⟩ := step_eq_some.mp hs
    refine (hlisted _ _ hroom).trans_eq' ?_
    simp [perform,getOrCreate_handler]
  · rw [step_rm hs c hg]
    exact (ih.held c (((step_rank hs c).found.mp hc).resolve_left hg)).trans_le (hle _)

/-- A cached offer has been read from a device that is still in its room. -/
theorem cached_registered (h : ServerRun query unmarshal as s) {id : String} {n : ℕ} {m : Msg}
    (hm : (s.heap id n).offerCache = some m) :
    ∃ c, .recv c m ∈ as ∧ role query c = .device ∧ (s.handler c).pc.Registered ∧
      id = roomID query c ∧ n = (s.handler c).rm := by
  induction h with
  | init => cases hm
  | @next as s s' a hrun hs ih =>
    have stays : (s.heap id n).offerCache = some m →
        (∀ c, a = .clear c → ¬ ((id = roomID query c ∧ n = (s.handler c).rm) ∧ role query c = .device)) →
        ∃ c, .recv c m ∈ a :: as ∧ role query c = .device ∧ (s'.handler c).pc.Registered ∧
          id = roomID query c ∧ n = (s'.handler c).rm := by
      intro hold hclear
      obtain ⟨c,hread,hdev,hreg,hid,hn⟩ := ih hold
      have hfound : 2 ≤ (s.handler c).pc.rank := Nat.le_of_succ_le hreg.1
      refine ⟨c,.tail _ hread,hdev,?_,hid,by rw [step_rm hs c (ne_getOrCreate_of_rank hs hfound),hn]⟩
      rw [registered_iff (hrun.next hs),List.mem_cons,List.mem_cons]
      obtain ⟨hset,hin⟩ := (registered_iff hrun c).mp hreg
      refine ⟨.inr hset,?_⟩
      rintro (ha | hmem)
      · exact hclear c ha.symm ⟨⟨hid,hn⟩,hdev⟩
      · exact hin hmem
    rw [step_offerCache hs] at hm
    cases a with
    | recv d raw =>
      simp only at hm
      split at hm
      · rename_i hd
        cases hm
        have hen := (step_eq_some.mp hs).1
        have hreading : (s.handler d).pc = .reading := by simpa [enabled] using hen
        refine ⟨d,.head _,hd.1.1,?_,hd.2.1,by rw [step_rm hs d (by simp),hd.2.2]⟩
        rw [registered_iff (hrun.next hs),List.mem_cons,List.mem_cons]
        have hreg := (registered_iff hrun d).mp (by rw [hreading]; decide)
        exact ⟨.inr hreg.1,by simpa using hreg.2⟩
      · exact stays hm (by simp)
    | clear d =>
      simp only at hm
      split at hm
      · cases hm
      · rename_i hd
        refine stays hm ?_
        rintro c hc
        cases hc
        exact hd
    | getOrCreate d =>
      simp only at hm
      split at hm
      · cases hm
      · exact stays hm (by simp)
    | _ => exact stays hm (by simp)

end Machine

end SignalServer
end AnyKvm
