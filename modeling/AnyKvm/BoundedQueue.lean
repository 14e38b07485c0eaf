import Mathlib.Data.List.Basic

/-! Bounded first-in first-out queues.
The capacity bound is a field of the structure, so an overfull queue cannot be built. -/
namespace AnyKvm

/-- At most `cap` items, oldest first. -/
structure BoundedQueue (α : Type*) (cap : ℕ) where
  items : List α
  length_le : items.length ≤ cap
  deriving DecidableEq, Repr

namespace BoundedQueue

variable {α : Type*} {cap : ℕ}

def empty : BoundedQueue α cap := ⟨[],Nat.zero_le _⟩

@[simp] theorem items_empty : (empty : BoundedQueue α cap).items = [] := rfl

@[ext] theorem ext {q r : BoundedQueue α cap} (h : q.items = r.items) : q = r := by
  cases q; cases r; cases h; rfl

def isFull (q : BoundedQueue α cap) : Bool := cap ≤ q.items.length

theorem length_snoc_le {items : List α} (h : items.length < cap) (a : α) :
    (items ++ [a]).length ≤ cap := by
  rwa [List.length_append,List.length_singleton]

def push? (q : BoundedQueue α cap) (a : α) : Option (BoundedQueue α cap) :=
  if h : q.items.length < cap then some ⟨q.items ++ [a],length_snoc_le h a⟩ else none

theorem length_tail_le (q : BoundedQueue α cap) : q.items.tail.length ≤ cap := by
  have h := q.length_le
  rw [List.length_tail]
  omega

def tail (q : BoundedQueue α cap) : BoundedQueue α cap :=
  ⟨q.items.tail,q.length_tail_le⟩

@[simp] theorem items_tail (q : BoundedQueue α cap) : q.tail.items = q.items.tail := rfl

def pop? (q : BoundedQueue α cap) : Option (α × BoundedQueue α cap) :=
  q.items.head?.map fun a => (a,q.tail)

theorem push?_eq_some {q r : BoundedQueue α cap} {a : α} :
    q.push? a = some r ↔ q.items.length < cap ∧ r.items = q.items ++ [a] := by
  unfold push?
  split
  · rename_i h
    constructor
    · intro he
      cases he
      exact ⟨h,rfl⟩
    · rintro ⟨_,hr⟩
      exact congrArg some (BoundedQueue.ext hr.symm)
  · rename_i h
    simp [h]

theorem items_of_push? {q r : BoundedQueue α cap} {a : α} (h : q.push? a = some r) :
    r.items = q.items ++ [a] :=
  (push?_eq_some.mp h).2

theorem pop?_eq_some {q r : BoundedQueue α cap} {a : α} :
    q.pop? = some (a,r) ↔ q.items = a :: r.items := by
  rcases q with ⟨_ | ⟨b,rest⟩,hq⟩
  · simp [pop?]
  · simp [pop?,BoundedQueue.ext_iff]

theorem pop?_eq_none {q : BoundedQueue α cap} : q.pop? = none ↔ q.items = [] := by
  simp [pop?]

theorem isFull_iff {q : BoundedQueue α cap} : q.isFull = true ↔ q.items.length = cap := by
  have h := q.length_le
  simp only [isFull,decide_eq_true_eq]
  omega

end BoundedQueue
end AnyKvm
