import Mathlib.Data.List.Basic

/-! The timers of an event loop. A timer runs no earlier than its timeout says, and only when each timer that was
started before it with a timeout that is not longer has run; apart from that it may be late. -/
namespace AnyKvm
namespace EventLoop

structure Timer (K : Type*) where
  timeout : ℕ
  due : ℕ
  call : K
  deriving DecidableEq

/-- `pending` is in the order in which the timers were started. -/
structure Timers (K : Type*) where
  now : ℕ := 0
  pending : List (Timer K) := []
  deriving DecidableEq

namespace Timers
variable {K : Type*} (ts : Timers K)

def start (timeout : ℕ) (call : K) : Timers K :=
  { ts with pending := ts.pending ++ [⟨timeout,ts.now + timeout,call⟩] }

def elapse (time : ℕ) : Timers K := { ts with now := ts.now + time }

def fire (n : ℕ) : Option (K × Timers K) :=
  ts.pending[n]?.bind fun t =>
    if t.due ≤ ts.now ∧ ∀ u ∈ ts.pending.take n, t.timeout < u.timeout then
      some (t.call,{ ts with pending := ts.pending.eraseIdx n })
    else none

variable {ts} {t : Timer K} {rest : List (Timer K)}

theorem fire_eq_some {n : ℕ} {r : K × Timers K} : ts.fire n = some r ↔
    ∃ t, ts.pending[n]? = some t ∧ (t.due ≤ ts.now ∧ ∀ u ∈ ts.pending.take n, t.timeout < u.timeout) ∧
      r = (t.call,{ ts with pending := ts.pending.eraseIdx n }) := by
  simp only [fire,Option.bind_eq_some_iff]
  constructor
  · rintro ⟨t,ht,h⟩
    split at h
    next hready => exact ⟨t,ht,hready,(Option.some.inj h).symm⟩
    · cases h
  · rintro ⟨t,ht,hready,rfl⟩
    exact ⟨t,ht,if_pos hready⟩

/-- A first timer of which no other has a shorter timeout runs before all others. -/
theorem fire_first (hpending : ts.pending = t :: rest) (hshort : ∀ u ∈ rest, t.timeout ≤ u.timeout) {n : ℕ}
    {r : K × Timers K} (h : ts.fire n = some r) : r = (t.call,{ ts with pending := rest }) := by
  obtain ⟨u,hu,⟨_,hearlier⟩,rfl⟩ := fire_eq_some.mp h
  rw [hpending] at hu hearlier ⊢
  cases n with
  | zero =>
    cases Option.some.inj hu
    rfl
  | succ n =>
    rw [List.getElem?_cons_succ] at hu
    have hlong := hshort u (List.mem_of_getElem? hu)
    have hlt := hearlier t (by rw [List.take_succ_cons]; exact List.mem_cons_self)
    exact absurd hlt (Nat.not_lt.mpr hlong)

theorem exists_fire (hpending : ts.pending = t :: rest) :
    ∃ time, (ts.elapse time).fire 0 = some (t.call,{ ts.elapse time with pending := rest }) := by
  refine ⟨t.due,fire_eq_some.mpr ⟨t,?_,⟨Nat.le_add_left _ _,?_⟩,?_⟩⟩
  · simp only [elapse,hpending,List.getElem?_cons_zero]
  · intro u hu
    cases hu
  · simp only [elapse,hpending,List.eraseIdx_cons_zero]

end Timers
end EventLoop
end AnyKvm
