import AnyKvm.BoundedQueue

/-! A bounded channel with a receiver that may go away.
What is sent and what becomes of it is kept as history. -/
namespace AnyKvm

/-- What a sender that does not wait is told. -/
inductive TrySend
  | ok | full | closed
  deriving DecidableEq, Repr

/-- `sent`, `received`, `unread` and `refused` are history: the items that went in and those that came out,
those that the receiver left behind, and those for which there was no room. -/
structure Mpsc (α : Type*) (cap : ℕ) where
  queue : BoundedQueue α cap := .empty
  closed : Bool := false
  sent : List α := []
  received : List α := []
  unread : List α := []
  refused : List α := []
  deriving DecidableEq

namespace Mpsc

variable {α : Type*} {cap : ℕ}

def hasCapacity (c : Mpsc α cap) : Bool := c.queue.items.length < cap

def trySend (c : Mpsc α cap) (a : α) : TrySend × Mpsc α cap :=
  if c.closed then (.closed,c)
  else match c.queue.push? a with
    | some queue => (.ok,{ c with queue := queue, sent := c.sent ++ [a] })
    | none => (.full,{ c with refused := c.refused ++ [a] })

def recv (c : Mpsc α cap) : Option (Mpsc α cap) :=
  if c.closed then none
  else c.queue.pop?.map fun (a,queue) => { c with queue := queue, received := c.received ++ [a] }

/-- The receiver goes away, and what it has not taken is lost. -/
def close (c : Mpsc α cap) : Mpsc α cap :=
  { c with queue := .empty, closed := true, unread := c.unread ++ c.queue.items }

/-- Items come out in the order in which they went in; none is lost before the receiver goes away. -/
structure InOrder (c : Mpsc α cap) : Prop where
  order : c.received ++ c.unread ++ c.queue.items = c.sent
  opened : c.closed = false → c.unread = []

/-- There is room as long as there is a receiver. -/
def Room (c : Mpsc α cap) : Prop := c.closed = false → c.queue.items.length < cap

variable {c c' : Mpsc α cap} {a : α}

theorem room_of_hasCapacity (h : c.hasCapacity = true) : c.Room := fun _ => of_decide_eq_true h

theorem recv_eq_some : c.recv = some c' ↔ c.closed = false ∧ ∃ a queue, c.queue.items = a :: queue.items ∧
    c' = { c with queue := queue, received := c.received ++ [a] } := by
  unfold recv
  cases hclosed : c.closed with
  | true => simp
  | false =>
    simp only [Bool.false_eq_true,if_false,Option.map_eq_some_iff,Prod.exists,true_and]
    constructor
    · rintro ⟨a,queue,hpop,rfl⟩
      exact ⟨a,queue,BoundedQueue.pop?_eq_some.mp hpop,rfl⟩
    · rintro ⟨a,queue,hitems,rfl⟩
      exact ⟨a,queue,BoundedQueue.pop?_eq_some.mpr hitems,rfl⟩

theorem Room.recv (hroom : c.Room) (h : c.recv = some c') : c'.Room := by
  obtain ⟨hclosed,a,queue,hitems,rfl⟩ := recv_eq_some.mp h
  intro _
  have hlt := hroom hclosed
  rw [hitems,List.length_cons] at hlt
  exact Nat.lt_of_succ_lt hlt

theorem Room.close : c.close.Room := nofun

theorem trySend_of_closed (h : c.closed = true) : c.trySend a = (.closed,c) := if_pos h

theorem trySend_of_room (hclosed : c.closed = false) (hroom : c.Room) : ∃ queue : BoundedQueue α cap,
    queue.items = c.queue.items ++ [a] ∧
      c.trySend a = (.ok,{ c with queue := queue, sent := c.sent ++ [a] }) := by
  refine ⟨⟨c.queue.items ++ [a],BoundedQueue.length_snoc_le (hroom hclosed) a⟩,rfl,?_⟩
  unfold trySend
  rw [hclosed,BoundedQueue.push?,dif_pos (hroom hclosed)]
  rfl

theorem inOrder_new : ({} : Mpsc α cap).InOrder := ⟨rfl,fun _ => rfl⟩

theorem InOrder.recv (hc : c.InOrder) (h : c.recv = some c') : c'.InOrder := by
  obtain ⟨hclosed,a,queue,hitems,rfl⟩ := recv_eq_some.mp h
  refine ⟨?_,hc.opened⟩
  have horder := hc.order
  rw [hc.opened hclosed,List.append_nil,hitems] at horder
  simpa [hc.opened hclosed] using horder

theorem InOrder.close (hc : c.InOrder) : c.close.InOrder := by
  refine ⟨?_,nofun⟩
  change c.received ++ (c.unread ++ c.queue.items) ++ [] = c.sent
  rw [List.append_nil,← List.append_assoc,hc.order]

theorem InOrder.push (hc : c.InOrder) {queue : BoundedQueue α cap} (hitems : queue.items = c.queue.items ++ [a]) :
    ({ c with queue := queue, sent := c.sent ++ [a] } : Mpsc α cap).InOrder := by
  refine ⟨?_,hc.opened⟩
  rw [← hc.order,hitems]
  simp

end Mpsc
end AnyKvm
