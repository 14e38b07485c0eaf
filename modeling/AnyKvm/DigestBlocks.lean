import AnyKvm.AttrLayout
import AnyKvm.BlockHash
import AnyKvm.Digests

/-! What `md5_hash` and `sha1_hash` share: their padding loop, their chunks and the words of these are the
padding, the blocks and the words of the standards. -/
namespace AnyKvm
namespace Turn

open Bytes BlockHash

/-- `while padded.len() % 64 != 56 { padded.push(0); }` -/
def pushZeros (padded : Bytes) : Bytes :=
  if padded.length % 64 ≠ 56 then pushZeros (padded ++ [0]) else padded
  termination_by (120 - padded.length % 64) % 64
  decreasing_by
    rw [List.length_append,List.length_singleton]
    omega

theorem pushZeros_eq (padded : Bytes) :
    pushZeros padded = padded ++ List.replicate ((120 - padded.length % 64) % 64) 0 := by
  fun_induction pushZeros padded with
  | case1 padded h ih =>
    have hcount : (120 - padded.length % 64) % 64 = (120 - (padded ++ [0]).length % 64) % 64 + 1 := by
      rw [List.length_append,List.length_singleton]
      omega
    rw [ih,hcount,List.replicate_succ,List.append_assoc]
    rfl
  | case2 padded h =>
    have hcount : (120 - padded.length % 64) % 64 = 0 := by omega
    rw [hcount,List.replicate_zero,List.append_nil]

theorem padded_eq_loop (data length : Bytes) : padded data length = pushZeros (data ++ [0x80]) ++ length := by
  have hcount : (120 - (data ++ [(0x80 : UInt8)]).length % 64) % 64 = (119 - data.length % 64) % 64 := by
    rw [List.length_append,List.length_singleton]
    omega
  rw [padded,pushZeros_eq,hcount]

theorem padded_eq_pad (data : Bytes) (lengthField : ℕ → Bytes) :
    padded data (lengthField (8 * data.length)) = pad lengthField data := by
  have hcount : (119 - data.length % 64) % 64 = (zeroBits (8 * data.length) - 7) / 8 := by
    unfold zeroBits
    omega
  rw [padded,hcount,pad]

theorem beLength_eq (n : ℕ) : u64ToBeBytes (UInt64.ofNat n * 8) = bigEndianBytes 8 (8 * n) := by
  have hmul : UInt64.ofNat n * 8 = UInt64.ofNat (8 * n) := by
    rw [Nat.mul_comm,UInt64.ofNat_mul]
    rfl
  rw [hmul,u64ToBeBytes_ofNat]
  simp [bigEndianBytes,List.range_succ]

theorem leLength_eq (n : ℕ) : (u64ToBeBytes (UInt64.ofNat n * 8)).reverse = littleEndianBytes 8 (8 * n) := by
  rw [beLength_eq]
  simp [bigEndianBytes,littleEndianBytes,List.range_succ]

theorem rotateLeft_eq {n : ℕ} (hpos : 0 < n) (hn : n < 32) (x : UInt32) :
    rotateLeft x (UInt32.ofNat n) = rotl n x := by
  apply UInt32.eq_of_toBitVec_eq
  have hof : (UInt32.ofNat n).toNat = n := UInt32.toNat_ofNat_of_lt' (Nat.lt_trans hn (by decide))
  have hsub : (32 - UInt32.ofNat n).toNat = 32 - n := by
    rw [UInt32.toNat_sub_of_le _ _ (UInt32.le_iff_toNat_le.mpr (by rw [hof]; exact Nat.le_of_lt hn)),hof]
    rfl
  have hleft : ((UInt32.ofNat n).toBitVec % 32).toNat = n := by
    rw [BitVec.toNat_umod,UInt32.toNat_toBitVec,hof]
    exact Nat.mod_eq_of_lt hn
  have hright : ((32 - UInt32.ofNat n).toBitVec % 32).toNat = 32 - n := by
    rw [BitVec.toNat_umod,UInt32.toNat_toBitVec,hsub]
    exact Nat.mod_eq_of_lt (Nat.sub_lt (by decide) hpos)
  rw [rotateLeft,rotl,UInt32.toBitVec_or,UInt32.toBitVec_shiftLeft,UInt32.toBitVec_shiftRight,
    BitVec.shiftLeft_eq',BitVec.ushiftRight_eq',hleft,hright,BitVec.rotateLeft,BitVec.rotateLeftAux,
    Nat.mod_eq_of_lt hn]

theorem bigEndian_eq (b₀ b₁ b₂ b₃ : UInt8) : bigEndian [b₀,b₁,b₂,b₃] = u32FromBeBytes b₀ b₁ b₂ b₃ := by
  have h₀ := b₀.toNat_lt
  have h₁ := b₁.toNat_lt
  have h₂ := b₂.toNat_lt
  have h₃ := b₃.toNat_lt
  let n := 256 * (256 * (256 * (256 * 0 + b₀.toNat) + b₁.toNat) + b₂.toNat) + b₃.toNat
  have hbytes : u32ToBeBytes (UInt32.ofNat n) = [b₀,b₁,b₂,b₃] := by
    rw [u32ToBeBytes_ofNat]
    simp only [List.cons.injEq,and_true,← UInt8.toNat_inj,UInt8.toNat_ofNat',n]
    omega
  simp only [u32ToBeBytes,List.cons.injEq,and_true] at hbytes
  obtain ⟨hb₀,hb₁,hb₂,hb₃⟩ := hbytes
  have hroundtrip := u32FromBeBytes_toBe (UInt32.ofNat n)
  rw [hb₀,hb₁,hb₂,hb₃] at hroundtrip
  exact hroundtrip.symm

theorem littleEndian_eq (b₀ b₁ b₂ b₃ : UInt8) : littleEndian [b₀,b₁,b₂,b₃] = u32FromLeBytes b₀ b₁ b₂ b₃ := by
  rw [u32FromLeBytes,← bigEndian_eq,littleEndian,bigEndian]
  simp only [List.foldr_cons,List.foldr_nil,List.foldl_cons,List.foldl_nil,Nat.add_comm]

theorem u32ToBeBytes_eq (v : UInt32) : u32ToBeBytes v = bigEndianBytes 4 v.toNat := by
  have h := u32ToBeBytes_ofNat v.toNat
  rw [UInt32.ofNat_toNat] at h
  rw [h]
  simp [bigEndianBytes,List.range_succ]

theorem u32ToLeBytes_eq (v : UInt32) : u32ToLeBytes v = littleEndianBytes 4 v.toNat := by
  rw [u32ToLeBytes,u32ToBeBytes_eq]
  simp [bigEndianBytes,littleEndianBytes,List.range_succ]

theorem take_four {data : Bytes} {n : ℕ} (h : n + 4 ≤ data.length) :
    (data.drop n).take 4 = [data.getD n 0,data.getD (n + 1) 0,data.getD (n + 2) 0,data.getD (n + 3) 0] := by
  rw [List.getD_eq_getElem _ _ (by omega),List.getD_eq_getElem _ _ (by omega),List.getD_eq_getElem _ _ (by omega),
    List.getD_eq_getElem _ _ (by omega),List.drop_eq_getElem_cons (by omega),List.drop_eq_getElem_cons (by omega),
    List.drop_eq_getElem_cons (by omega),List.drop_eq_getElem_cons (by omega)]
  rfl

section Chain
variable {σ τ : Type*} {compress : σ → Bytes → σ} {compress' : τ → (ℕ → UInt32) → τ}
variable {read : Octets → UInt32} {readFour : UInt8 → UInt8 → UInt8 → UInt8 → UInt32}

theorem words_chunk (hread : ∀ b₀ b₁ b₂ b₃, read [b₀,b₁,b₂,b₃] = readFour b₀ b₁ b₂ b₃) {data : Bytes} {i t : ℕ}
    (hi : 64 * (i + 1) ≤ data.length) (ht : t < 16) :
    (words readFour ((data.drop (64 * i)).take 64)).getD t 0 = word read data i t := by
  have hgetD : ∀ j < 64, ((data.drop (64 * i)).take 64).getD j 0 = data.getD (64 * i + j) 0 := by
    intro j hj
    rw [List.getD_eq_getElem?_getD,List.getElem?_take_of_lt hj,List.getElem?_drop,List.getD_eq_getElem?_getD]
  rw [words,List.getD_eq_getElem?_getD,List.getElem?_map,List.getElem?_range ht,word,take_four (by omega),hread]
  simp only [Option.map_some,Option.getD_some]
  rw [hgetD _ (by omega),hgetD _ (by omega),hgetD _ (by omega),hgetD _ (by omega)]
  rfl

/-- Chunk by chunk, the code's state shows the hash value that the standard has there. -/
theorem foldl_chunks_eq_chain (view : σ → τ) (hread : ∀ b₀ b₁ b₂ b₃, read [b₀,b₁,b₂,b₃] = readFour b₀ b₁ b₂ b₃)
    (hcompress : ∀ s chunk M, (∀ t < 16, (words readFour chunk).getD t 0 = M t) →
      view (compress s chunk) = compress' (view s) M) (data : Bytes) (s : σ) :
    view ((chunks data).foldl compress s) = chain compress' (view s) (word read data) (data.length / 64) := by
  have hbegins : ∀ n ≤ data.length / 64,
      view ((List.range n).foldl (fun s i => compress s ((data.drop (64 * i)).take 64)) s) =
        chain compress' (view s) (word read data) n := by
    intro n
    induction n with
    | zero => exact fun _ => rfl
    | succ n ih =>
      intro hn
      rw [List.range_succ,List.foldl_append,List.foldl_cons,List.foldl_nil,chain,← ih (by omega)]
      exact hcompress _ _ _ fun t ht => words_chunk hread (by omega) ht
  rw [chunks,List.foldl_map]
  exact hbegins _ (Nat.le_refl _)

end Chain
end Turn
end AnyKvm
