import AnyKvm.DigestBlocks
import AnyKvm.Rfc1321

/-! `md5_hash` against RFC 1321.
The standard names the registers of each operation; the code moves the registers instead, so that after `j` passes
they stand `j` places further, and are back in their places at the end of each round of sixteen. -/
namespace AnyKvm
namespace Turn

open Bytes BlockHash
open Rfc1321 (Registers Order Operation operate assign round1 round2 round3 round4)

/-- The registers as the code has them after `j` passes. -/
def placed (j : ℕ) (r : Registers) : Md5State :=
  match j % 4 with
  | 0 => ⟨r.A,r.B,r.C,r.D⟩
  | 1 => ⟨r.D,r.A,r.B,r.C⟩
  | 2 => ⟨r.C,r.D,r.A,r.B⟩
  | _ => ⟨r.B,r.C,r.D,r.A⟩

def orderAt (j : ℕ) : Order :=
  match j % 4 with
  | 0 => .abcd
  | 1 => .dabc
  | 2 => .cdab
  | _ => .bcda

/-- What pass `i` of the code has in its tables is what an operation says. -/
structure Agrees (i : ℕ) (op : Operation) : Prop where
  order : op.order = orderAt i
  word : op.k < 16
  shift : 0 < op.s ∧ op.s < 32
  shift_eq : (md5S.getD (i / 16) []).getD (i % 4) 0 = UInt32.ofNat op.s
  constant_eq : md5K.getD i 0 = Rfc1321.T op.i

instance (i : ℕ) (op : Operation) : Decidable (Agrees i op) :=
  decidable_of_iff (op.order = orderAt i ∧ op.k < 16 ∧ (0 < op.s ∧ op.s < 32) ∧
    (md5S.getD (i / 16) []).getD (i % 4) 0 = UInt32.ofNat op.s ∧ md5K.getD i 0 = Rfc1321.T op.i)
    ⟨fun ⟨h₁,h₂,h₃,h₄,h₅⟩ => ⟨h₁,h₂,h₃,h₄,h₅⟩,fun h => ⟨h.order,h.word,h.shift,h.shift_eq,h.constant_eq⟩⟩

/-- The sixteen operations of a round, from pass `start` on. -/
def Follows (start : ℕ) (ops : List Operation) : Prop :=
  ops.length = 16 ∧ ∀ j < 16, ∀ op ∈ ops[j]?, Agrees (start + j) op

instance (start : ℕ) (ops : List Operation) : Decidable (Follows start ops) :=
  inferInstanceAs (Decidable (_ ∧ ∀ j < 16, ∀ op ∈ ops[j]?, Agrees (start + j) op))

section Rounds
variable {f : UInt32 → UInt32 → UInt32 → UInt32} {X : ℕ → UInt32} {m : List UInt32} {op : Operation}
  {ops : List Operation}

/-- One pass of the loop: the operation, and the registers one place further. -/
theorem md5Round_placed {i : ℕ} {r : Registers} (hm : ∀ t < 16, m.getD t 0 = X t) (hop : Agrees i op)
    (hmix : ∀ s, md5Mix s i = (f s.b s.c s.d,op.k)) :
    md5Round m (placed i r) i = placed (i + 1) (operate f X r op) := by
  have hassign : ∀ a b c d, b + rotateLeft (a + f b c d + md5K.getD i 0 + m.getD op.k 0)
      ((md5S.getD (i / 16) []).getD (i % 4) 0) = assign f X op a b c d := by
    intro a b c d
    rw [hop.constant_eq,hm _ hop.word,hop.shift_eq,rotateLeft_eq hop.shift.1 hop.shift.2,assign]
    rw [UInt32.add_assoc (a + f b c d),UInt32.add_comm (Rfc1321.T op.i),← UInt32.add_assoc]
  have horder := hop.order
  unfold md5Round
  rw [hmix]
  simp only [hassign]
  unfold operate placed
  unfold orderAt at horder
  obtain h | h | h | h : i % 4 = 0 ∨ i % 4 = 1 ∨ i % 4 = 2 ∨ i % 4 = 3 := by omega
  · have hnext : (i + 1) % 4 = 1 := by omega
    simp only [h] at horder
    simp only [h,hnext,horder]
  · have hnext : (i + 1) % 4 = 2 := by omega
    simp only [h] at horder
    simp only [h,hnext,horder]
  · have hnext : (i + 1) % 4 = 3 := by omega
    simp only [h] at horder
    simp only [h,hnext,horder]
  · have hnext : (i + 1) % 4 = 0 := by omega
    simp only [h] at horder
    simp only [h,hnext,horder]

/-- A round of the code, from the registers in their places, is the round of the standard. -/
theorem round_placed {start : ℕ} (hm : ∀ t < 16, m.getD t 0 = X t) (hops : Follows start ops)
    (hmix : ∀ j < 16, ∀ op ∈ ops[j]?, ∀ s, md5Mix s (start + j) = (f s.b s.c s.d,op.k)) (r : Registers)
    {n : ℕ} (hn : n ≤ 16) :
    (List.range n).foldl (fun s j => md5Round m s (start + j)) (placed start r) =
      placed (start + n) ((ops.take n).foldl (operate f X) r) := by
  induction n with
  | zero => rfl
  | succ n ih =>
    have hlt : n < ops.length := by
      rw [hops.1]
      omega
    have hop : ops[n]? = some ops[n] := List.getElem?_eq_getElem hlt
    rw [List.range_succ,List.foldl_append,ih (by omega),List.take_add_one,hop,List.foldl_append]
    exact md5Round_placed hm (hops.2 n (by omega) _ hop) (hmix n (by omega) _ hop)

theorem round_eq {start : ℕ} (hm : ∀ t < 16, m.getD t 0 = X t) (hops : Follows start ops)
    (hmix : ∀ j < 16, ∀ op ∈ ops[j]?, ∀ s, md5Mix s (start + j) = (f s.b s.c s.d,op.k)) (r : Registers) :
    (List.range 16).foldl (fun s j => md5Round m s (start + j)) (placed start r) =
      placed (start + 16) (ops.foldl (operate f X) r) := by
  rw [round_placed hm hops hmix r (Nat.le_refl _),← hops.1,List.take_length]

theorem follows_round1 : Follows 0 round1 := by decide

theorem follows_round2 : Follows 16 round2 := by decide

theorem follows_round3 : Follows 32 round3 := by decide

theorem follows_round4 : Follows 48 round4 := by decide

theorem mix_round1 : ∀ j < 16, ∀ op ∈ round1[j]?, ∀ s, md5Mix s (0 + j) = (Rfc1321.F s.b s.c s.d,op.k) := by
  intro j hj op hop s
  have hword : ∀ j < 16, ∀ op ∈ round1[j]?, 0 + j = op.k := by decide
  rw [md5Mix,if_pos (by omega),hword j hj op hop]
  rfl

theorem mix_round2 : ∀ j < 16, ∀ op ∈ round2[j]?, ∀ s, md5Mix s (16 + j) = (Rfc1321.G s.b s.c s.d,op.k) := by
  intro j hj op hop s
  have hword : ∀ j < 16, ∀ op ∈ round2[j]?, (5 * (16 + j) + 1) % 16 = op.k := by decide
  rw [md5Mix,if_neg (by omega),if_pos (by omega),hword j hj op hop,UInt32.and_comm s.d,UInt32.and_comm _ s.c]
  rfl

theorem mix_round3 : ∀ j < 16, ∀ op ∈ round3[j]?, ∀ s, md5Mix s (32 + j) = (Rfc1321.H s.b s.c s.d,op.k) := by
  intro j hj op hop s
  have hword : ∀ j < 16, ∀ op ∈ round3[j]?, (3 * (32 + j) + 5) % 16 = op.k := by decide
  rw [md5Mix,if_neg (by omega),if_neg (by omega),if_pos (by omega),hword j hj op hop]
  rfl

theorem mix_round4 : ∀ j < 16, ∀ op ∈ round4[j]?, ∀ s, md5Mix s (48 + j) = (Rfc1321.I s.b s.c s.d,op.k) := by
  intro j hj op hop s
  have hword : ∀ j < 16, ∀ op ∈ round4[j]?, 7 * (48 + j) % 16 = op.k := by decide
  rw [md5Mix,if_neg (by omega),if_neg (by omega),if_neg (by omega),hword j hj op hop]
  rfl

theorem range_rounds : List.range 64 = (List.range 16).map (0 + ·) ++ (List.range 16).map (16 + ·) ++
    (List.range 16).map (32 + ·) ++ (List.range 16).map (48 + ·) := by decide

theorem rounds_eq (hm : ∀ t < 16, m.getD t 0 = X t) (r : Registers) :
    (List.range 64).foldl (md5Round m) (placed 0 r) = placed 64
      (round4.foldl (operate Rfc1321.I X) (round3.foldl (operate Rfc1321.H X)
        (round2.foldl (operate Rfc1321.G X) (round1.foldl (operate Rfc1321.F X) r)))) := by
  rw [range_rounds]
  simp only [List.foldl_append,List.foldl_map]
  rw [round_eq hm follows_round1 mix_round1,round_eq hm follows_round2 mix_round2,
    round_eq hm follows_round3 mix_round3,round_eq hm follows_round4 mix_round4]

def toRegisters (s : Md5State) : Registers := ⟨s.a,s.b,s.c,s.d⟩

theorem toRegisters_md5Chunk {chunk : Bytes} (hwords : ∀ t < 16, (words u32FromLeBytes chunk).getD t 0 = X t)
    (s : Md5State) : toRegisters (md5Chunk s chunk) = Rfc1321.block (toRegisters s) X := by
  have hrounds := rounds_eq hwords (toRegisters s)
  change (List.range 64).foldl (md5Round (words u32FromLeBytes chunk)) s = _ at hrounds
  unfold md5Chunk
  rw [hrounds]
  simp only [placed,toRegisters,Rfc1321.block,UInt32.add_comm]

end Rounds

/-- For messages of any length: from 2^61 bytes on, both take the low 64 bits of the length. -/
theorem md5_correct (data : Bytes) : md5Hash data = Rfc1321.md5 data := by
  have hchain := foldl_chunks_eq_chain toRegisters littleEndian_eq
    (fun s chunk X h => toRegisters_md5Chunk h s) (pad (littleEndianBytes 8) data)
    ⟨0x67452301,0xefcdab89,0x98badcfe,0x10325476⟩
  unfold md5Hash Rfc1321.md5
  simp only [leLength_eq,padded_eq_pad data (littleEndianBytes 8),u32ToLeBytes_eq]
  change _ = chain Rfc1321.block Rfc1321.initial _ _ at hchain
  rw [← hchain]
  simp [toRegisters]

end Turn
end AnyKvm
