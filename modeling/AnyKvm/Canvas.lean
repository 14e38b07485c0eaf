import AnyKvm.WordArith

/-! Buffers that are painted byte by byte; each byte is meant for one of the planes of a picture. -/
namespace AnyKvm

open Outcome

inductive Plane
  | y
  | u
  | v
  deriving DecidableEq, Repr

structure Stroke where
  plane : Plane
  index : ℕ
  byte : UInt8

def Stroke.mark (s : Stroke) : Plane × ℕ := (s.plane,s.index)

/-- A buffer, and what has been written to it so far: the planes and the places. -/
structure Canvas where
  yuv : Bytes
  marks : List (Plane × ℕ)
  deriving DecidableEq

namespace Canvas

def zeros (n : ℕ) : Canvas := ⟨List.replicate n 0,[]⟩

def write (c : Canvas) (plane : Plane) (i : ℕ) (byte : UInt8) : Outcome Fault Canvas :=
  if i < c.yuv.length then .ok ⟨c.yuv.set i byte,(plane,i) :: c.marks⟩ else .panicked

def paint (c : Canvas) (strokes : List Stroke) : Outcome Fault Canvas :=
  strokes.foldlM (fun c s => c.write s.plane s.index s.byte) c

def stroked (c : Canvas) (s : Stroke) : Canvas := ⟨c.yuv.set s.index s.byte,s.mark :: c.marks⟩

/-- The canvas after strokes that all are within it. -/
def painted (c : Canvas) (strokes : List Stroke) : Canvas := strokes.foldl stroked c

/-- The strokes are within a buffer of so many bytes. -/
def Within (n : ℕ) (strokes : List Stroke) : Prop := ∀ s ∈ strokes, s.index < n

instance (n : ℕ) (strokes : List Stroke) : Decidable (Within n strokes) :=
  inferInstanceAs (Decidable (∀ s ∈ strokes, s.index < n))

variable {c : Canvas} {strokes : List Stroke}

@[simp] theorem length_zeros (n : ℕ) : (zeros n).yuv.length = n := List.length_replicate

@[simp] theorem length_stroked (s : Stroke) : (c.stroked s).yuv.length = c.yuv.length := List.length_set

@[simp] theorem length_painted : (c.painted strokes).yuv.length = c.yuv.length := by
  induction strokes generalizing c with
  | nil => rfl
  | cons s rest ih => exact ih.trans (length_stroked s)

theorem paint_cons (s : Stroke) :
    c.paint (s :: strokes) = c.write s.plane s.index s.byte >>= fun c => c.paint strokes :=
  List.foldlM_cons

theorem paint_singleton (s : Stroke) : c.paint [s] = c.write s.plane s.index s.byte := by
  rw [paint_cons]
  cases c.write s.plane s.index s.byte <;> rfl

theorem paint_append (strokes' : List Stroke) :
    c.paint (strokes ++ strokes') = c.paint strokes >>= fun c => c.paint strokes' := by
  induction strokes generalizing c with
  | nil => rfl
  | cons s rest ih =>
    rw [List.cons_append,paint_cons,paint_cons,bind_bind]
    exact congrArg (_ >>= ·) (funext fun _ => ih)

theorem foldlM_paint {α : Type} {xs : List α} {pass : Canvas → α → Outcome Fault Canvas} {f : α → List Stroke}
    (h : ∀ x ∈ xs, ∀ c, pass c x = c.paint (f x)) : xs.foldlM pass c = c.paint (xs.flatMap f) := by
  induction xs generalizing c with
  | nil => rfl
  | cons x rest ih =>
    rw [List.foldlM_cons,List.flatMap_cons,paint_append,h x List.mem_cons_self]
    exact congrArg (_ >>= ·) (funext fun _ => ih fun y hy => h y (List.mem_cons_of_mem x hy))

theorem paint_eq : c.paint strokes =
    if Within c.yuv.length strokes then .ok (c.painted strokes) else .panicked := by
  induction strokes generalizing c with
  | nil => rfl
  | cons s rest ih =>
    rw [paint_cons,write]
    have hcons : Within c.yuv.length (s :: rest) ↔ s.index < c.yuv.length ∧ Within c.yuv.length rest :=
      List.forall_mem_cons
    by_cases hs : s.index < c.yuv.length
    · rw [if_pos hs]
      refine ih.trans ?_
      change (if Within (c.stroked s).yuv.length rest then _ else _) = _
      rw [length_stroked]
      by_cases hrest : Within c.yuv.length rest
      · rw [if_pos hrest,if_pos (hcons.mpr ⟨hs,hrest⟩)]
        rfl
      · rw [if_neg hrest,if_neg fun h => hrest (hcons.mp h).2]
    · rw [if_neg hs,if_neg fun h => hs (hcons.mp h).1]
      rfl

theorem mem_marks_painted {m : Plane × ℕ} :
    m ∈ (c.painted strokes).marks ↔ m ∈ c.marks ∨ m ∈ strokes.map Stroke.mark := by
  induction strokes generalizing c with
  | nil => exact (or_iff_left List.not_mem_nil).symm
  | cons s rest ih =>
    refine ih.trans ?_
    rw [stroked,List.mem_cons,List.map_cons,List.mem_cons,or_assoc,or_left_comm]

/-- A place has the byte of its strokes, if these agree. -/
theorem getElem?_painted {i : ℕ} {b : UInt8} (hi : i < c.yuv.length)
    (hagree : ∀ s ∈ strokes, s.index = i → s.byte = b)
    (h : c.yuv[i]? = some b ∨ i ∈ strokes.map Stroke.index) : (c.painted strokes).yuv[i]? = some b := by
  induction strokes generalizing c with
  | nil => exact h.resolve_right List.not_mem_nil
  | cons s rest ih =>
    rw [List.forall_mem_cons] at hagree
    refine ih (by rwa [length_stroked]) hagree.2 ?_
    by_cases hs : s.index = i
    · refine .inl ?_
      rw [stroked,hs,hagree.1 hs]
      exact List.getElem?_set_self hi
    · rw [stroked,List.getElem?_set_ne hs]
      rw [List.map_cons,List.mem_cons] at h
      exact h.imp_right fun h => h.resolve_left (Ne.symm hs)

end Canvas
end AnyKvm
