import AnyKvm.SignalTrace
import AnyKvm.RoomRegistry
import Mathlib.Data.List.Nodup

/-! How often an offer reaches a client.
A client is in its slot before it reads the cache, so an offer that arrives in between is forwarded
straight to it and then replayed from the cache as well. -/
namespace AnyKvm
namespace SignalServer

open Transition

section Trace
variable {C Msg : Type*} [DecidableEq C] (query : C → Query) (unmarshal : Msg → Option SignalMsg)

/-- No offer that was read from a connection has been enqueued twice to the same connection. -/
def AtMostOnce (_ : List (Action C Msg)) (g : Traced C Msg) : Prop :=
  ∀ c, ((g.received c).filter fun m => isOffer unmarshal m.raw).Nodup

/-- A client does not replay an offer that has been forwarded straight to it, after its registration
and before it read the cache, unless its queue is full. -/
def NoDoubleReplay (_ : List (Action C Msg)) (g : Traced C Msg) : Action C Msg → Prop
  | .replayOffer c => (g.server.send c).takes = true → g.straight c = false
  | _ => True

/-- The offer that a client has read from the cache, or would read now. -/
def pending (g : Traced C Msg) (c : C) : Option (Stamped C Msg) :=
  if 6 ≤ (g.server.handler c).pc.rank then (g.server.handler c).cached
  else (g.server.roomOf query c).offerCache

variable {query unmarshal} {as : List (Action C Msg)} {g g' : Traced C Msg} {a : Action C Msg} {c : C}

omit [DecidableEq C] in
theorem pending_time (h : Timely unmarshal g) {m : Stamped C Msg} (hm : pending query g c = some m) :
    m.time < g.now := by
  unfold pending at hm
  split at hm
  · exact (h.caches.handler c m hm).2
  · exact (h.caches.room _ _ m hm).2

theorem mem_received_step (hs : TracedStep query unmarshal g (a.stamp g.now) g') {m : Stamped C Msg}
    (hm : m.time < g.now) (hne : a ≠ .replayOffer c) : m ∈ g'.received c ↔ m ∈ g.received c := by
  rw [hs.received,List.mem_append,or_iff_left]
  intro henq
  rw [Option.mem_toList] at henq
  rw [time_of_enqueued henq hne] at hm
  exact Nat.lt_irrefl _ hm

theorem nextStraight_of_none {s : State C (Stamped C Msg)} {act : Action C (Stamped C Msg)}
    (h : enqueued query (unstamped unmarshal) s act c = none) :
    nextStraight query unmarshal s false c act = false := by
  unfold nextStraight
  rw [h]
  cases act <;> simp

theorem straight_of_unregistered (h : TracedRun query unmarshal as g) (c : C)
    (hc : (g.server.handler c).pc.rank < 3) : g.straight c = false := by
  induction h with
  | init => rfl
  | @next as g g' a hrun hs ih =>
    have hspec := tracedStep_spec hs
    have hbefore : (g.server.handler c).pc.rank < 3 := (rank_step hspec.server c).1.trans_lt hc
    have hnone : enqueued query (unstamped unmarshal) g.server (a.stamp g.now) c = none := by
      rw [Option.eq_none_iff_forall_ne_some]
      intro m hm
      have hreg := registered_of_enqueued (TracedRun.server hrun).2 (step_eq_some.mp hspec.server).1 hm
      exact absurd hreg.1 (Nat.not_le.mpr hbefore)
    rw [hspec.straight,ih hbefore,nextStraight_of_none hnone]

theorem straight_step (hrun : TracedRun query unmarshal as g)
    (hs : TracedStep query unmarshal g (a.stamp g.now) g')
    (h2 : 2 ≤ (g.server.handler c).pc.rank) (h6 : (g.server.handler c).pc.rank < 6)
    (h6' : (g'.server.handler c).pc.rank < 6) :
    (pending query g' c = pending query g c ∧ g'.straight c = g.straight c) ∨
      (pending query g' c = none ∧ g'.straight c = false) ∨
      ∃ m, pending query g' c = some m ∧ m.time = g.now ∧
        (g'.straight c = true ↔
          enqueued query (unstamped unmarshal) g.server (a.stamp g.now) c = some m) := by
  obtain ⟨act,hact⟩ : ∃ act, a.stamp g.now = act := ⟨_,rfl⟩
  rw [hact] at hs ⊢
  have hcreate := ne_getOrCreate_of_rank hs.server h2
  have hpending : pending query g' c =
      (g'.server.heap (roomID query c) (g.server.handler c).rm).offerCache := by
    rw [pending,if_neg (Nat.not_le.mpr h6'),State.roomOf,step_rm hs.server c hcreate]
  have hbefore : pending query g c =
      (g.server.heap (roomID query c) (g.server.handler c).rm).offerCache := by
    rw [pending,if_neg (Nat.not_le.mpr h6),State.roomOf]
  have hcache := step_offerCache hs.server (roomID query c) (g.server.handler c).rm
  have hstraight := hs.straight c
  unfold nextStraight offerToRoomOf at hstraight
  rw [if_neg (Nat.not_le.mpr h6)] at hstraight
  rw [← hpending] at hcache
  cases act with
  | recv d m =>
    simp only [offerTo] at hstraight hcache
    by_cases hd : (role query d = .device ∧ isOffer (unstamped unmarshal) m = true) ∧
        roomID query c = roomID query d ∧ (g.server.handler c).rm = (g.server.handler d).rm
    · rw [if_pos hd] at hcache
      simp only [if_pos hd,Option.isSome_some,if_true] at hstraight
      refine .inr (.inr ⟨m,hcache,(recv_of_stamp hact).2.1,?_⟩)
      rw [hstraight,Option.isSome_iff_exists]
      constructor
      · rintro ⟨m',hm'⟩
        obtain ⟨hsends,_⟩ := enqueued_eq_some.mp hm'
        cases enqueues_of_sends hsends
        exact hm'
      · intro hm
        exact ⟨m,hm⟩
    · rw [if_neg hd,← hbefore] at hcache
      simp only [if_neg hd] at hstraight
      exact .inl ⟨hcache,hstraight⟩
  | clear d =>
    simp only [offerTo,Option.isSome_none,Bool.false_eq_true,if_false] at hstraight hcache
    split at hcache
    · rename_i hd
      exact .inr (.inl ⟨hcache,by rw [hstraight,if_pos hd]⟩)
    · rename_i hd
      exact .inl ⟨hcache.trans hbefore.symm,by rw [hstraight,if_neg hd]⟩
  | getOrCreate d =>
    simp only at hcache
    rw [if_neg,← hbefore] at hcache
    · exact .inl ⟨hcache,hstraight⟩
    · rintro ⟨_,hid,hn⟩
      have hlt := (allocated (TracedRun.server hrun).2).held c h2
      rw [hid] at hlt
      omega
  | _ => exact .inl ⟨hcache.trans hbefore.symm,hstraight⟩

theorem straight_iff (h : TracedRun query unmarshal as g) (c : C)
    (hc : (g.server.handler c).pc.rank ≤ 6) :
    g.straight c = true ↔ ∃ m, pending query g c = some m ∧ m ∈ g.received c := by
  induction h with
  | init => simp [Traced.start,pending]
  | @next as g g' a hrun hs ih =>
    have hspec := tracedStep_spec hs
    obtain ⟨hmono,hsix⟩ := rank_step hspec.server c
    have ih := ih (hmono.trans hc)
    have htimely := timely hrun
    have hreplay : a ≠ .replayOffer c := by
      rintro rfl
      have hpc := step_pc hspec.server
      have h7 : (g'.server.handler c).pc = .reading := hpc
      rw [h7] at hc
      exact absurd hc (by decide)
    have hsame : pending query g' c = pending query g c → g'.straight c = g.straight c →
        (g'.straight c = true ↔ ∃ m, pending query g' c = some m ∧ m ∈ g'.received c) := by
      intro hpending hstraight
      rw [hpending,hstraight,ih]
      refine exists_congr fun m => and_congr_right fun hm => ?_
      rw [mem_received_step hspec (pending_time htimely hm) hreplay]
    by_cases hread : a.stamp g.now = .readCache c
    · have hpc := step_pc hspec.server
      have hen := (step_eq_some.mp hspec.server).1
      have hcached := (cached_step hspec.server c).2 hread
      have hstraight := hspec.straight c
      simp only [hread,Action.actor,Action.next,enabled,decide_eq_true_eq] at hpc hen
      apply hsame
      · rw [pending,pending,hpc,hen,if_pos (by decide),if_neg (by decide),hcached]
      · rw [hstraight,hread]
        unfold nextStraight
        rw [hen,if_neg (by decide)]
        rfl
    by_cases h6 : 6 ≤ (g.server.handler c).pc.rank
    · apply hsame
      · rw [pending,pending,if_pos h6,if_pos (h6.trans hmono),(cached_step hspec.server c).1 hread]
      · rw [hspec.straight]
        exact if_pos h6
    by_cases h3 : (g'.server.handler c).pc.rank < 3
    · rw [straight_of_unregistered (.next hrun hs) c h3,received_nil (.next hrun hs) c h3]
      simp
    have h6' : (g'.server.handler c).pc.rank < 6 := by
      refine lt_of_le_of_ne hc fun he => ?_
      rcases hsix he with h | h
      · exact hread h
      · omega
    have h2 := found_of_registered_step hspec.server (Nat.le_of_not_lt h3)
    rcases straight_step hrun hspec h2 (Nat.not_le.mp h6) h6' with ⟨hp,hst⟩ | ⟨hp,hst⟩ | ⟨m,hp,htime,hst⟩
    · exact hsame hp hst
    · rw [hp,hst]
      simp
    · rw [hst,hp,hspec.received]
      have hnew : m ∉ g.received c := by
        intro hm
        have := htimely.received c m hm
        omega
      simp [hnew,Option.mem_toList]

omit [DecidableEq C] in
theorem nodup_offers_snoc {ms : List (Stamped C Msg)} {m : Stamped C Msg}
    (hm : isOffer unmarshal m.raw = true)
    (h : (ms.filter fun m => isOffer unmarshal m.raw).Nodup) :
    ((ms ++ [m]).filter fun m => isOffer unmarshal m.raw).Nodup ↔ m ∉ ms := by
  rw [List.filter_append,List.filter_cons_of_pos (by simpa using hm),List.filter_nil,
    ← List.concat_eq_append,List.nodup_concat]
  simp [h,hm]

omit [DecidableEq C] in
theorem nodup_offers_fresh {ms : List (Stamped C Msg)} {m : Stamped C Msg} (hm : m ∉ ms)
    (h : (ms.filter fun m => isOffer unmarshal m.raw).Nodup) :
    ((ms ++ [m]).filter fun m => isOffer unmarshal m.raw).Nodup := by
  by_cases hoffer : isOffer unmarshal m.raw = true
  · exact (nodup_offers_snoc hoffer h).mpr hm
  · simpa [List.filter_append,hoffer] using h

theorem atMostOnce_step (hrun : TracedRun query unmarshal as g) (h : AtMostOnce unmarshal as g)
    (hs : tracedStep query unmarshal g a = some g') :
    NoDoubleReplay as g a ↔ AtMostOnce unmarshal (a :: as) g' := by
  have hspec := tracedStep_spec hs
  have htimely := timely hrun
  have hforward : ∀ c, a ≠ .replayOffer c →
      ((g'.received c).filter fun m => isOffer unmarshal m.raw).Nodup := by
    intro c hne
    rw [hspec.received]
    cases henq : enqueued query (unstamped unmarshal) g.server (a.stamp g.now) c with
    | none => simpa using h c
    | some m =>
      refine nodup_offers_fresh (fun hm => ?_) (h c)
      have hlt := htimely.received c m hm
      rw [time_of_enqueued henq hne] at hlt
      exact Nat.lt_irrefl _ hlt
  cases a with
  | replayOffer c =>
    have hen := (step_eq_some.mp hspec.server).1
    simp only [Action.stamp,Action.map,enabled,decide_eq_true_eq] at hen
    have hstraight := straight_iff hrun c (by rw [hen]; decide)
    have hpending : pending query g c = (g.server.handler c).cached := by
      rw [pending,hen]
      rfl
    have hothers : AtMostOnce unmarshal (.replayOffer c :: as) g' ↔
        ((g'.received c).filter fun m => isOffer unmarshal m.raw).Nodup := by
      refine ⟨fun h => h c,fun hc d => ?_⟩
      by_cases hd : c = d
      · exact hd ▸ hc
      · exact hforward d (by simpa using hd)
    rw [hothers,hspec.received]
    have hc := h c
    cases henq : enqueued query (unstamped unmarshal) g.server ((Action.replayOffer c).stamp g.now) c with
    | none =>
      refine ⟨fun _ => by simpa using hc,fun _ htakes => ?_⟩
      rw [← Bool.not_eq_true,hstraight]
      rintro ⟨m,hm,_⟩
      rw [hpending] at hm
      have hsends : sends query (unstamped unmarshal) g.server ((Action.replayOffer c).stamp g.now) =
          some (c,m) := by simp [Action.stamp,Action.map,sends,hm]
      have hsome := enqueued_eq_some.mpr ⟨hsends,htakes⟩
      rw [henq] at hsome
      cases hsome
    | some m =>
      obtain ⟨hsends,htakes⟩ := enqueued_eq_some.mp henq
      have hcached : (g.server.handler c).cached = some m := by
        cases enqueues_of_sends hsends with
        | replay hcached => exact hcached
      rw [Option.toList_some,nodup_offers_snoc (htimely.caches.handler c m hcached).1 hc]
      have hiff : g.straight c = false ↔ m ∉ g.received c := by
        rw [← Bool.not_eq_true,hstraight,hpending,hcached]
        simp
      rw [← hiff]
      exact ⟨fun h => h htakes,fun h _ => h⟩
  | _ => exact ⟨fun _ c => hforward c (by simp),fun _ => trivial⟩

/-- In all states that a run passes through, each offer has been enqueued at most once to each
connection exactly if no client ever replays an offer that it has been sent already. -/
theorem at_most_once_iff (hrun : TracedRun query unmarshal as g) :
    Always (tracedStep query unmarshal) .start (AtMostOnce unmarshal) as ↔
      GuardedRun (tracedStep query unmarshal) .start NoDoubleReplay as g := by
  apply hrun.always_iff_guarded
  · intro c
    exact List.nodup_nil
  · intro as g a g' hg honce hs
    exact atMostOnce_step hg.run honce hs

end Trace

/-- An offer is forwarded while a client is between its registration and its read of the cache. -/
def offerDuringRegistration : List (Action ℕ String) :=
  [.connect 0,.getOrCreate 0,.set 0,.setName 0 1,.spawnPump 0,
    .connect 1,.getOrCreate 1,.set 1,.recv 0 "offer",.spawnPump 1,.readCache 1,.replayOffer 1]

abbrev pairTracedStep : Traced ℕ String → Action ℕ String → Option (Traced ℕ String) :=
  tracedStep pairQuery fun type => some ⟨type⟩

theorem at_most_once_iff_pair :
    ∃ g, TracedRun pairQuery (fun type => some ⟨type⟩) offerDuringRegistration.reverse g ∧
      (Always pairTracedStep .start (AtMostOnce fun type => some ⟨type⟩) offerDuringRegistration.reverse ↔
        GuardedRun pairTracedStep .start NoDoubleReplay offerDuringRegistration.reverse g) := by
  obtain ⟨g,hrun,_⟩ := exists_run_of_replay pairTracedStep .start offerDuringRegistration
    (fun _ => true) (by decide +kernel)
  exact ⟨g,hrun,at_most_once_iff hrun⟩

/-- The client gets the one offer twice. -/
theorem offer_enqueued_twice :
    ¬ ∀ as g, TracedRun pairQuery (fun type : String => some ⟨type⟩) as g →
      AtMostOnce (fun type => some ⟨type⟩) as g := by
  intro h
  obtain ⟨g,hrun,hp⟩ := exists_run_of_replay pairTracedStep .start offerDuringRegistration
    (fun g => g.received 1 = [⟨0,8,"offer"⟩,⟨0,8,"offer"⟩]) (by decide +kernel)
  have honce := h _ g hrun 1
  rw [of_decide_eq_true hp] at honce
  revert honce
  decide

end SignalServer
end AnyKvm
