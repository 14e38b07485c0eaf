import AnyKvm.OfferOnce

/-! Whether a client ends up with the newest offer.
The client reads the cache under the lock and sends what it has read without it, so an offer that is
forwarded in between overtakes the older one, which then comes last. -/
namespace AnyKvm
namespace SignalServer

open Transition

section Trace
variable {C Msg : Type*} [DecidableEq C] (query : C → Query) (unmarshal : Msg → Option SignalMsg)

def offersOf (g : Traced C Msg) (c : C) : List (Stamped C Msg) :=
  (g.received c).filter fun m => isOffer unmarshal m.raw

/-- No other client takes or empties the slot of a registered client, and its queue is not full. -/
def Undisturbed (c : C) (_ : List (Action C Msg)) (g : Traced C Msg) : Prop :=
  ((g.server.handler c).pc.Registered → (g.server.roomOf query c).slot .client = some c) ∧
    (g.server.send c).queue.isFull = false

instance (c : C) (as : List (Action C Msg)) (g : Traced C Msg) : Decidable (Undisturbed query c as g) :=
  inferInstanceAs (Decidable ((_ → _) ∧ _))

/-- The offers of a client come in the order in which they have been read, and once its replay is done
the last of them is the newest that the room has seen, and a cached offer is among them. -/
structure OfferFresh (c : C) (_ : List (Action C Msg)) (g : Traced C Msg) : Prop where
  ordered : (offersOf unmarshal g c).Pairwise fun m m' => m.time ≤ m'.time
  latest : (g.server.handler c).pc = .reading → ∀ m, (offersOf unmarshal g c).getLast? = some m →
    g.newest (roomID query c) (g.server.handler c).rm = some m
  cached : (g.server.handler c).pc = .reading → ∀ m, (g.server.roomOf query c).offerCache = some m →
    m ∈ g.received c

/-- The client does not replay an offer after a newer one has been forwarded. -/
def NotOvertaken (c : C) (_ : List (Action C Msg)) (g : Traced C Msg) : Action C Msg → Prop
  | .replayOffer d => d = c → (g.server.handler c).cached ≠ none → g.overtaken c = false
  | _ => True

variable {query unmarshal} {as : List (Action C Msg)} {g g' : Traced C Msg} {a : Action C Msg} {c : C}

/-- The course of a client up to its cleanup. -/
structure Following (query : C → Query) (unmarshal : Msg → Option SignalMsg) (c : C)
    (g : Traced C Msg) : Prop where
  ordered : (offersOf unmarshal g c).Pairwise fun m m' => m.time ≤ m'.time
  latest : (g.server.handler c).pc.rank ≤ 7 → ∀ m, (offersOf unmarshal g c).getLast? = some m →
    g.newest (roomID query c) (g.server.handler c).rm = some m
  read : (g.server.handler c).pc.rank = 6 → ∀ m, (g.server.handler c).cached = some m →
    if g.overtaken c = true then ∃ m', (offersOf unmarshal g c).getLast? = some m' ∧ m.time < m'.time
    else g.newest (roomID query c) (g.server.handler c).rm = some m
  seen : (g.server.handler c).pc.rank = 6 ∨ (g.server.handler c).pc.rank = 7 →
    ∀ m, (g.server.roomOf query c).offerCache = some m →
      m ∈ g.received c ∨ (g.server.handler c).pc.rank = 6 ∧ (g.server.handler c).cached = some m

/-- While a client is in its slot, exactly the offers of its room are forwarded to it. -/
theorem forwarded_iff (hrun : TracedRun query unmarshal as g) (hc : Undisturbed query c as g)
    (hrole : role query c = .client) (hreg : (g.server.handler c).pc.Registered)
    {act : Action C (Stamped C Msg)} (hen : enabled query g.server act = true)
    (hne : act ≠ .replayOffer c) {m : Stamped C Msg} :
    offerToRoomOf query unmarshal g.server c act = some m ↔
      enqueued query (unstamped unmarshal) g.server act c = some m ∧ isOffer unmarshal m.raw = true := by
  constructor
  · intro h
    obtain ⟨d,rfl,⟨hdev,hoffer⟩,hid,hrm⟩ := offerTo_eq_some.mp h
    have hslot := hc.1 hreg
    rw [State.roomOf,hid,hrm] at hslot
    obtain ⟨msg,hmsg⟩ : ∃ msg, unmarshal m.raw = some msg := by
      rw [isOffer,Option.any_eq_true] at hoffer
      exact ⟨_,hoffer.choose_spec.1⟩
    have hsends : sends query (unstamped unmarshal) g.server (.recv d m) = some (c,m) := by
      simp only [sends,unstamped,hmsg,hdev,Room.peerOf,State.roomOf,hslot,Option.map_some]
    refine ⟨enqueued_eq_some.mpr ⟨hsends,?_⟩,hoffer⟩
    simp [SendChan.takes,open_of_sends (TracedRun.server hrun).2 hen hsends,hc.2]
  · rintro ⟨henq,hoffer⟩
    cases enqueues_of_sends (enqueued_eq_some.mp henq).1 with
    | forward d hslot =>
      obtain ⟨_,⟨hid,hrm⟩,hρ⟩ := lastSetter_spec (lastSetter_of_slot (TracedRun.server hrun).2 hslot).1
      have hdev : role query d = .device := by
        rw [hrole] at hρ
        cases hd : role query d with
        | device => rfl
        | client => rw [hd] at hρ; cases hρ
      exact offerTo_eq_some.mpr ⟨d,rfl,⟨hdev,hoffer⟩,hid.symm,hrm.symm⟩
    | replay _ => exact absurd rfl hne

theorem offersOf_step (hrun : TracedRun query unmarshal as g) (hc : Undisturbed query c as g)
    (hrole : role query c = .client) (hreg : (g.server.handler c).pc.Registered)
    (hs : TracedStep query unmarshal g (a.stamp g.now) g') (hne : a.stamp g.now ≠ .replayOffer c) :
    offersOf unmarshal g' c =
      offersOf unmarshal g c ++ (offerToRoomOf query unmarshal g.server c (a.stamp g.now)).toList := by
  have hen := (step_eq_some.mp hs.server).1
  have hiff := fun m => forwarded_iff (m := m) hrun hc hrole hreg hen hne
  unfold offersOf
  rw [hs.received,List.filter_append]
  congr 1
  cases henq : enqueued query (unstamped unmarshal) g.server (a.stamp g.now) c with
  | none =>
    cases ho : offerToRoomOf query unmarshal g.server c (a.stamp g.now) with
    | none => rfl
    | some m =>
      rw [((hiff m).mp ho).1] at henq
      cases henq
  | some m =>
    by_cases hoffer : isOffer unmarshal m.raw = true
    · rw [(hiff m).mpr ⟨henq,hoffer⟩]
      simp [hoffer]
    · cases ho : offerToRoomOf query unmarshal g.server c (a.stamp g.now) with
      | none => simp [hoffer]
      | some m' =>
        obtain ⟨h,hoffer'⟩ := (hiff m').mp ho
        rw [henq] at h
        cases h
        exact absurd hoffer' hoffer

theorem offersOf_unregistered (hrun : TracedRun query unmarshal as g)
    (hreg : ¬ (g.server.handler c).pc.Registered) (hs : TracedStep query unmarshal g (a.stamp g.now) g') :
    offersOf unmarshal g' c = offersOf unmarshal g c := by
  have hnone : enqueued query (unstamped unmarshal) g.server (a.stamp g.now) c = none := by
    rw [Option.eq_none_iff_forall_ne_some]
    intro m hm
    exact hreg (registered_of_enqueued (TracedRun.server hrun).2 (step_eq_some.mp hs.server).1 hm)
  simp [offersOf,hs.received,hnone]

theorem cache_of_step {act : Action C (Stamped C Msg)}
    (hs : TracedStep query unmarshal g act g') (h2 : 2 ≤ (g.server.handler c).pc.rank) {m : Stamped C Msg}
    (hm : (g'.server.roomOf query c).offerCache = some m) :
    offerToRoomOf query unmarshal g.server c act = some m ∨
      offerToRoomOf query unmarshal g.server c act = none ∧
        (g.server.roomOf query c).offerCache = some m := by
  have hcreate := ne_getOrCreate_of_rank hs.server h2
  rw [State.roomOf,step_rm hs.server c hcreate] at hm
  have hcache := step_offerCache hs.server (roomID query c) (g.server.handler c).rm
  rw [hm] at hcache
  unfold offerToRoomOf
  cases act with
  | recv d raw =>
    simp only [offerTo] at hcache ⊢
    split at hcache
    · rename_i hd
      rw [if_pos hd]
      exact .inl hcache.symm
    · rename_i hd
      rw [if_neg hd]
      exact .inr ⟨rfl,hcache.symm⟩
  | clear d =>
    simp only at hcache
    split at hcache
    · cases hcache
    · exact .inr ⟨rfl,hcache.symm⟩
  | getOrCreate d =>
    simp only at hcache
    split at hcache
    · cases hcache
    · exact .inr ⟨rfl,hcache.symm⟩
  | _ => exact .inr ⟨rfl,hcache.symm⟩

theorem nextOvertaken_of_ne {s : State C (Stamped C Msg)} {before : Bool} {act : Action C (Stamped C Msg)}
    (h : act ≠ .readCache c) :
    nextOvertaken query unmarshal s before c act =
      (before || (offerToRoomOf query unmarshal s c act).isSome) := by
  cases act with
  | readCache d =>
    have hd : d ≠ c := by
      rintro rfl
      exact h rfl
    simp [nextOvertaken,hd,offerToRoomOf,offerTo]
  | _ => rfl

omit [DecidableEq C] in
theorem ordered_snoc {ms : List (Stamped C Msg)} {m : Stamped C Msg}
    (h : ms.Pairwise fun m m' => m.time ≤ m'.time) :
    (ms ++ [m]).Pairwise (fun m m' => m.time ≤ m'.time) ↔ ∀ m' ∈ ms, m'.time ≤ m.time := by
  rw [List.pairwise_append]
  simp [h]

theorem reading_step {act : Action C (Stamped C Msg)} (hrole : role query c = .client)
    (hs : step query (unstamped unmarshal) g.server act = some g'.server)
    (h : (g'.server.handler c).pc.rank = 7) :
    act = .replayOffer c ∨ (g.server.handler c).pc.rank = 7 := by
  by_cases hc : c = act.actor
  · have hpc := step_pc hs
    have hen := (step_eq_some.mp hs).1
    subst hc
    rw [hpc] at h
    cases act <;> simp_all [enabled,Action.actor,Action.next,Pc.rank]
  · rw [step_handler_ne hs hc] at h
    exact .inr h

theorem rank_of_unregistered {act : Action C (Stamped C Msg)}
    (hs : step query (unstamped unmarshal) g.server act = some g'.server)
    (h : (g.server.handler c).pc.rank < 3) : (g'.server.handler c).pc.rank ≤ 3 := by
  by_contra hlt
  rcases (step_rank hs c).set.mp (by omega) with rfl | h3
  · have hpc := step_pc hs
    simp only [Action.actor,Action.next] at hpc
    rw [hpc] at hlt
    exact hlt le_rfl
  · omega

omit [DecidableEq C] in
theorem time_of_forwarded {m : Stamped C Msg}
    (h : offerToRoomOf query unmarshal g.server c (a.stamp g.now) = some m) : m.time = g.now := by
  obtain ⟨d,hact,_⟩ := offerTo_eq_some.mp h
  exact (recv_of_stamp hact).2.1

theorem time_of_offersOf (hrun : TracedRun query unmarshal as g) {m : Stamped C Msg}
    (hm : m ∈ offersOf unmarshal g c) : m.time < g.now :=
  (timely hrun).received c m (List.mem_filter.mp hm).1

section Forward
variable (hs : TracedStep query unmarshal g (a.stamp g.now) g') (hreg : (g.server.handler c).pc.Registered)
include hs hreg

/-- What has been forwarded in the room of a registered client is the newest offer there. -/
theorem newest_forward : g'.newest (roomID query c) (g'.server.handler c).rm =
    (offerToRoomOf query unmarshal g.server c (a.stamp g.now)).or
      (g.newest (roomID query c) (g.server.handler c).rm) := by
  have hrm : (g'.server.handler c).rm = (g.server.handler c).rm := by
    apply step_rm hs.server
    intro hact
    have hen := (step_eq_some.mp hs.server).1
    rw [hact] at hen
    simp only [enabled,decide_eq_true_eq] at hen
    have h3 := hreg.1
    rw [hen] at h3
    exact absurd h3 (by decide)
  rw [hrm]
  exact hs.newest _ _

variable (hrun : TracedRun query unmarshal as g) (hc : Undisturbed query c as g) (hrole : role query c = .client)
variable (h : Following query unmarshal c g) (hne : a.stamp g.now ≠ .replayOffer c)
include hrun hc hrole h hne

theorem Following.forward_ordered :
    (offersOf unmarshal g' c).Pairwise fun m m' => m.time ≤ m'.time := by
  rw [offersOf_step hrun hc hrole hreg hs hne]
  cases ho : offerToRoomOf query unmarshal g.server c (a.stamp g.now) with
  | none => simpa using h.ordered
  | some m =>
    refine (ordered_snoc h.ordered).mpr fun m' hm' => ?_
    rw [time_of_forwarded ho]
    exact (time_of_offersOf hrun hm').le

theorem Following.forward_latest (h7 : (g'.server.handler c).pc.rank ≤ 7) {m : Stamped C Msg}
    (hm : (offersOf unmarshal g' c).getLast? = some m) :
    g'.newest (roomID query c) (g'.server.handler c).rm = some m := by
  rw [newest_forward hs hreg]
  rw [offersOf_step hrun hc hrole hreg hs hne] at hm
  cases ho : offerToRoomOf query unmarshal g.server c (a.stamp g.now) with
  | none =>
    rw [ho,Option.toList_none,List.append_nil] at hm
    exact h.latest ((rank_step hs.server c).1.trans h7) m hm
  | some m' =>
    rw [ho,Option.toList_some,List.getLast?_concat] at hm
    exact hm

/-- The offer is read at this step, or was read before and is overtaken by what is forwarded. -/
theorem Following.forward_read (h6 : (g'.server.handler c).pc.rank = 6) {m : Stamped C Msg}
    (hm : (g'.server.handler c).cached = some m) :
    if g'.overtaken c = true then ∃ m', (offersOf unmarshal g' c).getLast? = some m' ∧ m.time < m'.time
    else g'.newest (roomID query c) (g'.server.handler c).rm = some m := by
  have hnewest := newest_forward hs hreg
  have hovertaken := hs.overtaken c
  by_cases hread : a.stamp g.now = .readCache c
  · rw [(cached_step hs.server c).2 hread] at hm
    rw [hread] at hnewest hovertaken
    rw [hovertaken]
    simp only [nextOvertaken,if_true,Bool.false_eq_true,if_false]
    rw [hnewest]
    exact newest_of_cache hrun hm
  · have h6' := ((rank_step hs.server c).2 h6).resolve_left hread
    rw [(cached_step hs.server c).1 hread] at hm
    rw [nextOvertaken_of_ne hread] at hovertaken
    rw [hovertaken,offersOf_step hrun hc hrole hreg hs hne,hnewest]
    cases ho : offerToRoomOf query unmarshal g.server c (a.stamp g.now) with
    | none => simpa using h.read h6' m hm
    | some m' =>
      simp only [Option.isSome_some,Bool.or_true,if_true,Option.toList_some]
      refine ⟨m',List.getLast?_concat,?_⟩
      rw [time_of_forwarded ho]
      exact ((timely hrun).caches.handler c m hm).2

/-- The cached offer is forwarded at this step, or it has been received or read before. -/
theorem Following.forward_seen (h67 : (g'.server.handler c).pc.rank = 6 ∨ (g'.server.handler c).pc.rank = 7)
    {m : Stamped C Msg} (hm : (g'.server.roomOf query c).offerCache = some m) :
    m ∈ g'.received c ∨ (g'.server.handler c).pc.rank = 6 ∧ (g'.server.handler c).cached = some m := by
  have hen := (step_eq_some.mp hs.server).1
  have h2 : 2 ≤ (g.server.handler c).pc.rank := le_trans (by decide) hreg.1
  rcases cache_of_step hs h2 hm with ho | ⟨_,hcache⟩
  · left
    rw [hs.received,((forwarded_iff hrun hc hrole hreg hen hne).mp ho).1]
    simp
  by_cases hread : a.stamp g.now = .readCache c
  · have hpc := step_pc hs.server
    rw [hread] at hpc
    right
    rw [(cached_step hs.server c).2 hread]
    exact ⟨congrArg Pc.rank hpc,hcache⟩
  have hseven : (g'.server.handler c).pc.rank = 7 → (g.server.handler c).pc.rank = 7 :=
    fun h7 => (reading_step hrole hs.server h7).resolve_left hne
  have hbefore := h67.imp (fun h6 => ((rank_step hs.server c).2 h6).resolve_left hread) hseven
  rcases h.seen hbefore m hcache with hrec | ⟨h6,hcached⟩
  · left
    rw [hs.received]
    exact List.mem_append_left _ hrec
  · right
    refine ⟨h67.resolve_right fun h7 => ?_,?_⟩
    · have := hseven h7
      omega
    · rwa [(cached_step hs.server c).1 hread]

/-- A registered client is sent what is forwarded in its room, and its replay is still correct. -/
theorem Following.forward : Following query unmarshal c g' where
  ordered := h.forward_ordered hs hreg hrun hc hrole hne
  latest h7 _ hm := h.forward_latest hs hreg hrun hc hrole hne h7 hm
  read h6 _ hm := h.forward_read hs hreg hrun hc hrole hne h6 hm
  seen h67 _ hm := h.forward_seen hs hreg hrun hc hrole hne h67 hm

end Forward

/-- Before its registration nothing is sent to a client, and after its cleanup nothing is promised. -/
theorem Following.outside (hrun : TracedRun query unmarshal as g) (h : Following query unmarshal c g)
    (hs : tracedStep query unmarshal g a = some g') (hreg : ¬ (g.server.handler c).pc.Registered) :
    Following query unmarshal c g' := by
  have hspec := tracedStep_spec hs
  have hoffers := offersOf_unregistered hrun hreg hspec
  obtain ⟨hmono,hsix⟩ := rank_step hspec.server c
  by_cases h3 : 3 ≤ (g.server.handler c).pc.rank
  · have h8 : 8 ≤ (g'.server.handler c).pc.rank := by
      refine le_trans ?_ hmono
      by_contra hlt
      exact hreg ⟨h3,by omega⟩
    refine ⟨?_,?_,?_,?_⟩
    · rw [hoffers]
      exact h.ordered
    all_goals intro h'; omega
  · have hnil : offersOf unmarshal g' c = [] := by
      rw [hoffers,offersOf,received_nil hrun c (Nat.not_le.mp h3),List.filter_nil]
    have hle : (g'.server.handler c).pc.rank ≤ 3 := rank_of_unregistered hspec.server (Nat.not_le.mp h3)
    refine ⟨?_,?_,?_,?_⟩
    · rw [hnil]
      exact List.Pairwise.nil
    · rw [hnil]
      rintro _ m ⟨⟩
    all_goals intro h'; omega

omit [DecidableEq C] in
theorem time_le_last {ms : List (Stamped C Msg)} (h : ms.Pairwise fun m m' => m.time ≤ m'.time)
    {l m : Stamped C Msg} (hl : ms.getLast? = some l) (hm : m ∈ ms) : m.time ≤ l.time := by
  obtain ⟨init,rfl⟩ := List.getLast?_eq_some_iff.mp hl
  rcases List.mem_append.mp hm with hm | hm
  · exact (List.pairwise_append.mp h).2.2 m hm l (List.mem_singleton.mpr rfl)
  · rw [List.mem_singleton.mp hm]

theorem offersOf_replay (hrun : TracedRun query unmarshal as g) (hc : Undisturbed query c as g)
    (hs : TracedStep query unmarshal g (.replayOffer c) g') :
    g'.received c = g.received c ++ (g.server.handler c).cached.toList ∧
      offersOf unmarshal g' c = offersOf unmarshal g c ++ (g.server.handler c).cached.toList := by
  have hen := (step_eq_some.mp hs.server).1
  have henq : enqueued query (unstamped unmarshal) g.server (.replayOffer c) c =
      (g.server.handler c).cached := by
    cases hcached : (g.server.handler c).cached with
    | none => simp [enqueued,sends,hcached]
    | some m =>
      have hsends : sends query (unstamped unmarshal) g.server (.replayOffer c) = some (c,m) := by
        simp [sends,hcached]
      refine enqueued_eq_some.mpr ⟨hsends,?_⟩
      simp [SendChan.takes,open_of_sends (TracedRun.server hrun).2 hen hsends,hc.2]
  have hreceived := hs.received c
  rw [henq] at hreceived
  refine ⟨hreceived,?_⟩
  unfold offersOf
  rw [hreceived,List.filter_append]
  congr 1
  rw [List.filter_eq_self]
  intro m hm
  exact ((timely hrun).caches.handler c m (Option.mem_toList.mp hm)).1

theorem Following.replay (hrun : TracedRun query unmarshal as g) (hc : Undisturbed query c as g)
    (h : Following query unmarshal c g) (hs : TracedStep query unmarshal g (.replayOffer c) g')
    (hfresh : (g.server.handler c).cached ≠ none → g.overtaken c = false) :
    Following query unmarshal c g' := by
  obtain ⟨hreceived,hoffers⟩ := offersOf_replay hrun hc hs
  have hen := (step_eq_some.mp hs.server).1
  simp only [enabled,decide_eq_true_eq] at hen
  have h6 : (g.server.handler c).pc.rank = 6 := congrArg Pc.rank hen
  have h7 : (g'.server.handler c).pc.rank = 7 := congrArg Pc.rank (step_pc hs.server)
  have hrm := step_rm hs.server c (by simp)
  have hnewest : g'.newest (roomID query c) (g.server.handler c).rm =
      g.newest (roomID query c) (g.server.handler c).rm := hs.newest _ _
  have hcache : ∀ m, (g'.server.roomOf query c).offerCache = some m →
      m ∈ g.received c ∨ (g.server.handler c).cached = some m := by
    intro m hm
    rcases cache_of_step hs (by omega) hm with ho | ⟨_,hcache⟩
    · cases ho
    · exact (h.seen (.inl h6) m hcache).imp_right And.right
  cases hcached : (g.server.handler c).cached with
  | none =>
    rw [hcached,Option.toList_none,List.append_nil] at hreceived hoffers
    refine ⟨?_,?_,?_,?_⟩
    · rw [hoffers]
      exact h.ordered
    · intro _ m hm
      rw [hrm,hnewest]
      exact h.latest (by omega) m (hoffers ▸ hm)
    · intro h6'
      omega
    · intro _ m hm
      left
      rw [hreceived]
      refine (hcache m hm).resolve_right ?_
      simp [hcached]
  | some m =>
    rw [hcached,Option.toList_some] at hreceived hoffers
    have hnew := h.read h6 m hcached
    rw [hfresh (by simp [hcached])] at hnew
    simp only [Bool.false_eq_true,if_false] at hnew
    refine ⟨?_,?_,?_,?_⟩
    · rw [hoffers]
      refine (ordered_snoc h.ordered).mpr fun m' hm' => ?_
      cases hlast : (offersOf unmarshal g c).getLast? with
      | none =>
        rw [List.getLast?_eq_none_iff.mp hlast] at hm'
        cases hm'
      | some l =>
        have hl := h.latest (by omega) l hlast
        rw [hnew] at hl
        cases hl
        exact time_le_last h.ordered hlast hm'
    · intro _ m' hm'
      rw [hoffers,List.getLast?_concat] at hm'
      rw [hrm,hnewest,hnew,hm']
    · intro h6'
      omega
    · intro _ m' hm'
      left
      rw [hreceived]
      rcases hcache m' hm' with hm' | hm'
      · exact List.mem_append_left _ hm'
      · rw [hcached] at hm'
        cases hm'
        simp

theorem Following.step (hrun : TracedRun query unmarshal as g) (hc : Undisturbed query c as g)
    (hrole : role query c = .client) (h : Following query unmarshal c g)
    (hs : tracedStep query unmarshal g a = some g') (hfresh : NotOvertaken c as g a) :
    Following query unmarshal c g' := by
  have hspec := tracedStep_spec hs
  by_cases hreg : (g.server.handler c).pc.Registered
  · by_cases hne : a.stamp g.now = .replayOffer c
    · obtain rfl : a = .replayOffer c := by cases a <;> cases hne; rfl
      exact h.replay hrun hc hspec (hfresh rfl)
    · exact h.forward hspec hreg hrun hc hrole hne
  · exact h.outside hrun hs hreg

theorem following (hg : GuardedRun (tracedStep query unmarshal) .start (NotOvertaken c) as g)
    (hund : Always (tracedStep query unmarshal) .start (Undisturbed query c) as)
    (hrole : role query c = .client) : Following query unmarshal c g := by
  refine hg.invariant_within (P := fun _ g => Following query unmarshal c g) ?_ ?_ hund
  · exact ⟨List.Pairwise.nil,by rintro _ m ⟨⟩,by rintro _ m ⟨⟩,by rintro _ m ⟨⟩⟩
  · intro as g a g' hg hc _ ih hfresh hs
    exact ih.step hg.run hc hrole hs hfresh

omit [DecidableEq C] in
theorem Following.fresh (h : Following query unmarshal c g) : OfferFresh query unmarshal c as g := by
  refine ⟨h.ordered,?_,?_⟩
  · intro hpc
    exact h.latest (by rw [hpc]; decide)
  · intro hpc m hm
    refine (h.seen (.inr (by rw [hpc]; rfl)) m hm).resolve_right ?_
    rw [hpc]
    rintro ⟨⟨⟩,_⟩

/-- A replayed offer that has been overtaken comes after a newer one. -/
theorem not_overtaken (hrun : TracedRun query unmarshal as g) (hc : Undisturbed query c as g)
    (h : Following query unmarshal c g) (hs : tracedStep query unmarshal g a = some g')
    (hfresh : OfferFresh query unmarshal c (a :: as) g') : NotOvertaken c as g a := by
  cases a with
  | replayOffer d =>
    rintro rfl hne
    have hspec := tracedStep_spec hs
    obtain ⟨m,hcached⟩ := Option.ne_none_iff_exists'.mp hne
    have hen := (step_eq_some.mp hspec.server).1
    simp only [Action.stamp,Action.map,enabled,decide_eq_true_eq] at hen
    have hread := h.read (congrArg Pc.rank hen) m hcached
    rw [← Bool.not_eq_true]
    intro hover
    rw [if_pos hover] at hread
    obtain ⟨l,hlast,hlt⟩ := hread
    have hordered := hfresh.ordered
    rw [(offersOf_replay hrun hc hspec).2,hcached,Option.toList_some,ordered_snoc h.ordered] at hordered
    have hle := hordered l (List.mem_of_getLast? hlast)
    exact Nat.lt_irrefl _ (hlt.trans_le hle)
  | _ => trivial

/-- A client whose queue never fills and whose slot is left alone ends up with the newest offer, in
all states that a run passes through, exactly if its replay is never overtaken. -/
theorem offer_fresh_iff (hrun : TracedRun query unmarshal as g) (hrole : role query c = .client)
    (hund : Always (tracedStep query unmarshal) .start (Undisturbed query c) as) :
    Always (tracedStep query unmarshal) .start (OfferFresh query unmarshal c) as ↔
      GuardedRun (tracedStep query unmarshal) .start (NotOvertaken c) as g := by
  refine hrun.always_iff_guarded_within ?_ ?_ hund
  · exact ⟨List.Pairwise.nil,by rintro _ m ⟨⟩,by rintro _ m ⟨⟩⟩
  · intro as g a g' hg hund _ hs
    have hfollow := following hg hund hrole
    have hc := hund.here hg.run
    constructor
    · intro hfresh
      exact (hfollow.step hg.run hc hrole hs hfresh).fresh
    · intro hfresh
      exact not_overtaken hg.run hc hfollow hs hfresh

end Trace

/-- The device sends a new offer while a client holds the one it has read from the cache. -/
def offerDuringReplay : List (Action ℕ String) :=
  [.connect 0,.getOrCreate 0,.set 0,.setName 0 1,.spawnPump 0,.recv 0 "offer",
    .connect 1,.getOrCreate 1,.set 1,.spawnPump 1,.readCache 1,.recv 0 "offer",.replayOffer 1]

theorem offerDuringReplay_undisturbed :
    Always pairTracedStep .start (Undisturbed pairQuery 1) offerDuringReplay.reverse := by
  have h : Always pairTracedStep .start (fun _ g => decide (Undisturbed pairQuery 1 [] g) = true)
      offerDuringReplay.reverse := always_of_replay _ _ (by decide +kernel)
  intro as g hsuf hrun
  exact of_decide_eq_true (h as g hsuf hrun)

theorem offer_fresh_iff_pair :
    ∃ g, TracedRun pairQuery (fun type => some ⟨type⟩) offerDuringReplay.reverse g ∧
      (Always pairTracedStep .start (OfferFresh pairQuery (fun type => some ⟨type⟩) 1)
          offerDuringReplay.reverse ↔
        GuardedRun pairTracedStep .start (NotOvertaken 1) offerDuringReplay.reverse g) := by
  obtain ⟨g,hrun,_⟩ := exists_run_of_replay pairTracedStep .start offerDuringReplay
    (fun _ => true) (by decide +kernel)
  exact ⟨g,hrun,offer_fresh_iff hrun (by decide) offerDuringReplay_undisturbed⟩

/-- The replayed offer comes after the newer one. -/
theorem stale_offer_last :
    ¬ ∀ as g, TracedRun pairQuery (fun type : String => some ⟨type⟩) as g →
      Always pairTracedStep .start (Undisturbed pairQuery 1) as →
      OfferFresh pairQuery (fun type => some ⟨type⟩) 1 as g := by
  intro h
  obtain ⟨g,hrun,hp⟩ := exists_run_of_replay pairTracedStep .start offerDuringReplay
    (fun g => g.received 1 = [⟨0,11,"offer"⟩,⟨0,5,"offer"⟩]) (by decide +kernel)
  have hordered := (h _ g hrun offerDuringReplay_undisturbed).ordered
  rw [offersOf,of_decide_eq_true hp] at hordered
  revert hordered
  decide

end SignalServer
end AnyKvm
