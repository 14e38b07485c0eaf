import Mathlib.Data.List.Infix

/-! Byte streams of NAL units. A unit follows a start code, at least two zeros and a one. It contains no start code and
does not end in a zero, so that a stream can be taken apart again. -/
namespace AnyKvm
namespace AnnexB

structure NalUnit where
  header : UInt8
  payload : List UInt8
  noStartCode : ¬ [0,0,1] <:+: header :: payload
  noTrailingZero : (header :: payload).getLast? ≠ some 0

def NalUnit.bytes (u : NalUnit) : List UInt8 := u.header :: u.payload

/-- A start code of so many zeros more than it needs. -/
def startCode (zeros : ℕ) : List UInt8 := List.replicate (zeros + 2) 0 ++ [1]

def byteStream : List (ℕ × NalUnit) → List UInt8
  | [] => []
  | (zeros,u) :: us => startCode zeros ++ (u.bytes ++ byteStream us)

/-- No start code ends in `bs` after so many zeros. -/
def Clean (zeros : ℕ) (bs : List UInt8) : Prop := ¬ [0,0,1] <:+: List.replicate zeros 0 ++ bs

variable {zeros : ℕ} {b : UInt8} {bs : List UInt8}

theorem clean_zero_cons : Clean zeros (0 :: bs) ↔ Clean (zeros + 1) bs := by
  rw [Clean,Clean,List.replicate_succ',List.append_assoc,List.singleton_append]

theorem startCode_within (hb : b ≠ 0) : [0,0,1] <:+: List.replicate zeros 0 ++ b :: bs ↔
    b = 1 ∧ 2 ≤ zeros ∨ [0,0,1] <:+: bs := by
  induction zeros with
  | zero =>
    rw [List.replicate_zero,List.nil_append,List.infix_cons_iff,List.cons_prefix_cons]
    simp [hb.symm]
  | succ zeros ih =>
    rw [List.replicate_succ,List.cons_append,List.infix_cons_iff,ih,List.cons_prefix_cons]
    have hstart : [0,1] <+: List.replicate zeros 0 ++ b :: bs ↔ b = 1 ∧ zeros = 1 := by
      match zeros with
      | 0 => simp [List.cons_prefix_cons,hb.symm]
      | 1 => simp [List.cons_prefix_cons,eq_comm]
      | zeros + 2 => simp [List.replicate_succ,List.cons_prefix_cons]
    rw [hstart]
    constructor
    · rintro (⟨_,hone,rfl⟩ | ⟨hone,hle⟩ | h)
      · exact .inl ⟨hone,Nat.le_refl 2⟩
      · exact .inl ⟨hone,Nat.le_succ_of_le hle⟩
      · exact .inr h
    · rintro (⟨hone,hle⟩ | h)
      · rcases Nat.lt_or_eq_of_le hle with hlt | heq
        · exact .inr (.inl ⟨hone,Nat.le_of_lt_succ hlt⟩)
        · exact .inl ⟨rfl,hone,(Nat.succ.inj heq).symm⟩
      · exact .inr (.inr h)

theorem clean_cons (hb : b ≠ 0) : Clean zeros (b :: bs) ↔ ¬ (b = 1 ∧ 2 ≤ zeros) ∧ Clean 0 bs := by
  rw [Clean,startCode_within hb,not_or]
  rfl

theorem NalUnit.clean (u : NalUnit) : Clean 0 u.bytes := u.noStartCode

end AnnexB
end AnyKvm
