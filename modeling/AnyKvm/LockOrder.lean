import Mathlib.Logic.Relation
import Mathlib.Logic.Function.Basic
import Mathlib.Order.WellFounded

/-! Threads that hold locks and wait for locks, for any kind of threads and locks.
If a thread only ever waits for a lock above all those that it holds, no threads wait for each other
in a circle, and whoever waits does so, in the end, for a holder that waits for nobody. The table of
the holders is kept up to date by the two operations on locks. -/
namespace AnyKvm
namespace LockOrder

open Relation

variable {T M R : Type*}

section Waiting
variable (holds wants : T → M → Prop)

/-- A thread waits for a lock that another one holds, or itself. -/
def WaitsFor (t u : T) : Prop := ∃ m, wants t m ∧ holds u m

/-- No thread waits for a lock that is not above those that it holds. -/
def Ordered [Preorder R] (rank : M → R) : Prop := ∀ t m m', wants t m → holds t m' → rank m' < rank m

end Waiting

section Ordered
variable [Preorder R] {rank : M → R} {holds wants : T → M → Prop}

theorem Ordered.le_of_transGen (h : Ordered holds wants rank) {t u : T}
    (hchain : TransGen (WaitsFor holds wants) t u) :
    ∃ m m', wants t m ∧ holds u m' ∧ rank m ≤ rank m' := by
  induction hchain with
  | single hwait =>
    obtain ⟨m,hwants,hholds⟩ := hwait
    exact ⟨m,m,hwants,hholds,le_refl _⟩
  | tail _ hwait ih =>
    obtain ⟨m,m',hwants,hholds,hle⟩ := ih
    obtain ⟨m₂,hwants₂,hholds₂⟩ := hwait
    exact ⟨m,m₂,hwants,hholds₂,hle.trans (h _ _ _ hwants₂ hholds).le⟩

/-- No threads wait for each other in a circle. -/
theorem Ordered.acyclic (h : Ordered holds wants rank) (t : T) :
    ¬ TransGen (WaitsFor holds wants) t t := by
  intro hcycle
  obtain ⟨m,m',hwants,hholds,hle⟩ := h.le_of_transGen hcycle
  exact lt_irrefl _ (hle.trans_lt (h t m m' hwants hholds))

/-- Every chain of waiting threads leads to a holder that waits for nobody. -/
theorem Ordered.exists_unblocked [WellFoundedGT R] (h : Ordered holds wants rank) {t u : T}
    (hwait : WaitsFor holds wants t u) :
    ∃ v, ReflTransGen (WaitsFor holds wants) u v ∧ (∃ m, holds v m) ∧
      ∀ w, ¬ WaitsFor holds wants v w := by
  obtain ⟨m,-,hholds⟩ := hwait
  induction hr : rank m using WellFoundedGT.induction generalizing m u with
  | _ r ih =>
    by_cases hfree : ∀ w, ¬ WaitsFor holds wants u w
    · exact ⟨u,.refl,⟨m,hholds⟩,hfree⟩
    · obtain ⟨w,hw⟩ := not_forall_not.mp hfree
      obtain ⟨m',hwants',hholds'⟩ := hw
      have hlt : r < rank m' := hr ▸ h u m' m hwants' hholds
      obtain ⟨v,hchain,hv⟩ := ih (rank m') hlt m' hholds' rfl
      exact ⟨v,.head ⟨m',hwants',hholds'⟩ hchain,hv⟩

end Ordered

section Table
/-- The table of the holders agrees with the locks that the threads hold, by where they are. -/
def Agrees (owner : M → Option T) (held : T → List M) : Prop := ∀ m t, owner m = some t ↔ m ∈ held t

theorem Agrees.unique {owner : M → Option T} {held : T → List M} (h : Agrees owner held) {m : M} {t u : T}
    (ht : m ∈ held t) (hu : m ∈ held u) : t = u :=
  Option.some.inj (((h m t).mpr ht).symm.trans ((h m u).mpr hu))

variable [DecidableEq T] [DecidableEq M] {owner : M → Option T} {held : T → List M}

theorem Agrees.lock (h : Agrees owner held) {m : M} (hfree : owner m = none) (t : T) :
    Agrees (Function.update owner m (some t)) (Function.update held t (m :: held t)) := by
  intro m' u
  by_cases hm : m' = m
  · subst hm
    rw [Function.update_self,Option.some_inj]
    by_cases hu : u = t
    · subst hu
      rw [Function.update_self]
      exact iff_of_true rfl (List.mem_cons_self ..)
    · rw [Function.update_of_ne hu,← h m' u,hfree]
      exact iff_of_false (Ne.symm hu) (fun h => nomatch h)
  · rw [Function.update_of_ne hm,h m' u]
    by_cases hu : u = t
    · subst hu
      rw [Function.update_self,List.mem_cons]
      exact (or_iff_right hm).symm
    · rw [Function.update_of_ne hu]

theorem Agrees.unlock (h : Agrees owner held) {m : M} {t : T} {rest : List M}
    (hheld : held t = m :: rest) (hm : m ∉ rest) :
    Agrees (Function.update owner m none) (Function.update held t rest) := by
  have howner : owner m = some t := (h m t).mpr (hheld ▸ List.mem_cons_self ..)
  intro m' u
  by_cases hm' : m' = m
  · subst hm'
    rw [Function.update_self]
    refine iff_of_false (fun h => nomatch h) ?_
    by_cases hu : u = t
    · subst hu
      rwa [Function.update_self]
    · rw [Function.update_of_ne hu,← h m' u,howner]
      exact fun heq => hu (Option.some.inj heq).symm
  · rw [Function.update_of_ne hm',h m' u]
    by_cases hu : u = t
    · subst hu
      rw [Function.update_self,hheld,List.mem_cons]
      exact or_iff_right hm'
    · rw [Function.update_of_ne hu]

end Table

end LockOrder
end AnyKvm
