import AnyKvm.DigestBlocks
import AnyKvm.Fips180

/-! `sha1_hash` against FIPS 180-4, and `hmac_sha1` against RFC 2104. -/
namespace AnyKvm
namespace Turn

open Bytes BlockHash Fips180

theorem ch_eq (x y z : UInt32) : x &&& y ||| ~~~x &&& z = ch x y z := by
  apply UInt32.eq_of_toBitVec_eq
  simp only [ch,UInt32.toBitVec_or,UInt32.toBitVec_and,UInt32.toBitVec_xor,UInt32.toBitVec_not]
  ext i hi
  simp only [BitVec.getElem_or,BitVec.getElem_and,BitVec.getElem_xor,BitVec.getElem_not]
  cases x.toBitVec[i] <;> cases y.toBitVec[i] <;> cases z.toBitVec[i] <;> rfl

theorem maj_eq (x y z : UInt32) : x &&& y ||| x &&& z ||| y &&& z = maj x y z := by
  apply UInt32.eq_of_toBitVec_eq
  simp only [maj,UInt32.toBitVec_or,UInt32.toBitVec_and,UInt32.toBitVec_xor]
  ext i hi
  simp only [BitVec.getElem_or,BitVec.getElem_and,BitVec.getElem_xor]
  cases x.toBitVec[i] <;> cases y.toBitVec[i] <;> cases z.toBitVec[i] <;> rfl

theorem sha1Mix_eq (s : Sha1State) (t : ℕ) : sha1Mix s t = (f t s.b s.c s.d,constant t) := by
  have hle : ∀ n, t ≤ n ↔ t < n + 1 := fun n => Nat.lt_succ_iff.symm
  unfold sha1Mix f constant
  simp only [hle,Nat.reduceAdd]
  by_cases h₁ : t < 20
  · simp only [if_pos h₁,ch_eq]
  · by_cases h₂ : t < 40
    · simp only [if_neg h₁,if_pos h₂,parity]
    · by_cases h₃ : t < 60
      · simp only [if_neg h₁,if_neg h₂,if_pos h₃,maj_eq]
      · simp only [if_neg h₁,if_neg h₂,if_neg h₃,parity]

section Chunk
variable {chunk : Bytes} {M : ℕ → UInt32}

theorem schedule_of_lt {t : ℕ} (h : t < 16) : schedule M t = M t := by rw [schedule,if_pos h]

theorem schedule_next (n : ℕ) : schedule M (16 + n) =
    rotl 1 (schedule M (n + 13) ^^^ schedule M (n + 8) ^^^ schedule M (n + 2) ^^^ schedule M n) := by
  have h₃ : 16 + n - 3 = n + 13 := by omega
  have h₈ : 16 + n - 8 = n + 8 := by omega
  have h₁₄ : 16 + n - 14 = n + 2 := by omega
  have h₁₆ : 16 + n - 16 = n := by omega
  rw [schedule,if_neg (by omega),h₃,h₈,h₁₄,h₁₆]

/-- The words that the code has appended so far are those of the recurrence. -/
theorem scheduled (hwords : ∀ t < 16, (words u32FromBeBytes chunk).getD t 0 = M t) (n : ℕ) :
    let w := (List.range n).foldl (fun w i =>
      w ++ [rotateLeft (w.getD (i + 13) 0 ^^^ w.getD (i + 8) 0 ^^^ w.getD (i + 2) 0 ^^^ w.getD i 0) 1])
      (words u32FromBeBytes chunk)
    w.length = 16 + n ∧ ∀ t < 16 + n, w.getD t 0 = schedule M t := by
  induction n with
  | zero => exact ⟨rfl,fun t ht => (hwords t ht).trans (schedule_of_lt ht).symm⟩
  | succ n ih =>
    obtain ⟨hlength,hw⟩ := ih
    rw [List.range_succ,List.foldl_append]
    refine ⟨by rw [List.foldl_cons,List.foldl_nil,List.length_append,hlength]; rfl,fun t ht => ?_⟩
    rw [List.foldl_cons,List.foldl_nil,hw _ (by omega),hw _ (by omega),hw _ (by omega),hw _ (by omega)]
    rcases Nat.lt_or_ge t (16 + n) with hlt | hge
    · rw [List.getD_append _ _ _ _ (by omega),hw t hlt]
    · have ht : t = 16 + n := by omega
      subst ht
      rw [List.getD_append_right _ _ _ _ (by omega),hlength,Nat.sub_self,schedule_next]
      exact rotateLeft_eq Nat.one_pos (by decide) _

def toVars (s : Sha1State) : Vars := ⟨s.a,s.b,s.c,s.d,s.e⟩

theorem toVars_sha1Round {w : List UInt32} {W : ℕ → UInt32} {t : ℕ} (hw : w.getD t 0 = W t) (s : Sha1State) :
    toVars (sha1Round w s t) = step W t (toVars s) := by
  unfold sha1Round step
  rw [sha1Mix_eq,hw]
  simp only [toVars]
  rw [← rotateLeft_eq (n := 5) (by decide) (by decide),← rotateLeft_eq (n := 30) (by decide) (by decide)]
  rfl

theorem toVars_rounds {w : List UInt32} {W : ℕ → UInt32} {n : ℕ} (hw : ∀ t < n, w.getD t 0 = W t)
    (s : Sha1State) : toVars ((List.range n).foldl (sha1Round w) s) = rounds W (toVars s) n := by
  induction n with
  | zero => rfl
  | succ n ih =>
    rw [List.range_succ,List.foldl_append,List.foldl_cons,List.foldl_nil,toVars_sha1Round (hw n (by omega)),
      ih fun t ht => hw t (by omega)]
    rfl

theorem toVars_sha1Chunk (hwords : ∀ t < 16, (words u32FromBeBytes chunk).getD t 0 = M t) (s : Sha1State) :
    toVars (sha1Chunk s chunk) = compress (toVars s) M := by
  have hrounds := toVars_rounds (n := 80) (scheduled hwords 64).2 s
  unfold compress
  rw [← hrounds]
  simp only [sha1Chunk,sha1Schedule,toVars,UInt32.add_comm]

end Chunk

theorem sha1Hash_eq (data : Bytes) : sha1Hash data = sha1 data := by
  have hchain := foldl_chunks_eq_chain toVars bigEndian_eq (fun s chunk M h => toVars_sha1Chunk h s)
    (pad (bigEndianBytes 8) data) ⟨0x67452301,0xEFCDAB89,0x98BADCFE,0x10325476,0xC3D2E1F0⟩
  unfold sha1Hash sha1
  simp only [beLength_eq,padded_eq_pad data (bigEndianBytes 8),u32ToBeBytes_eq]
  change _ = chain compress initial _ _ at hchain
  rw [← hchain]
  simp [toVars]

theorem length_sha1Hash (data : Bytes) : (sha1Hash data).length = 20 := rfl

theorem hmacSha1_eq (key data : Bytes) : hmacSha1 key data = hmac sha1Hash 64 key data := by
  have hkey : (blockKey sha1Hash 64 key).length = 64 :=
    length_blockKey (fun bytes => by rw [length_sha1Hash]; decide) key
  unfold hmac
  simp only [xor_replicate hkey]
  rfl

/-- For messages and keys of any length: from 2^61 bytes on, where the standard ends, both take the last 64 bits
of the length. -/
theorem sha1_correct : (∀ data, sha1Hash data = sha1 data) ∧ ∀ key data, hmacSha1 key data = hmac sha1 64 key data :=
  have hsha1 : sha1Hash = sha1 := funext sha1Hash_eq
  ⟨sha1Hash_eq,fun key data => hsha1 ▸ hmacSha1_eq key data⟩

end Turn
end AnyKvm
