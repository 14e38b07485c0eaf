import Mathlib.Algebra.Ring.Nat
import Mathlib.Data.List.Basic

/-! Hashes that run a compression function over the blocks of 512 bits of a padded message, and the message
authentication code over a hash, in the words of their standards. -/
namespace AnyKvm
namespace BlockHash

abbrev Octets := List UInt8

def bigEndian (bytes : Octets) : UInt32 := UInt32.ofNat (bytes.foldl (fun n b => 256 * n + b.toNat) 0)

def littleEndian (bytes : Octets) : UInt32 := UInt32.ofNat (bytes.foldr (fun b n => b.toNat + 256 * n) 0)

def bigEndianBytes (size n : ℕ) : Octets := (List.range size).map fun i => UInt8.ofNat (n / 256 ^ (size - 1 - i))

def littleEndianBytes (size n : ℕ) : Octets := (List.range size).map fun i => UInt8.ofNat (n / 256 ^ i)

def rotl (n : ℕ) (x : UInt32) : UInt32 := ⟨x.toBitVec.rotateLeft n⟩

/-- How many zero bits follow the end mark of a message of `l` bits. -/
def zeroBits (l : ℕ) : ℕ := (959 - l % 512) % 512

theorem zeroBits_spec (l : ℕ) : (l + 1 + zeroBits l) % 512 = 448 := by
  unfold zeroBits
  omega

theorem zeroBits_least {l k : ℕ} (h : (l + 1 + k) % 512 = 448) : zeroBits l ≤ k := by
  unfold zeroBits
  omega

/-- A message of whole bytes with the end mark, its zeros and its length in bits. -/
def pad (lengthField : ℕ → Octets) (message : Octets) : Octets :=
  message ++ [0x80] ++ List.replicate ((zeroBits (8 * message.length) - 7) / 8) 0 ++
    lengthField (8 * message.length)

/-- The bits of a byte string, from the most significant bit of each byte on. -/
def bits (bytes : Octets) : List Bool :=
  bytes.flatMap fun b => (List.range 8).map fun i => b.toNat.testBit (7 - i)

theorem length_bits (bytes : Octets) : (bits bytes).length = 8 * bytes.length := by
  simp [bits,List.length_flatMap,Nat.mul_comm]

theorem bits_append (bytes bytes' : Octets) : bits (bytes ++ bytes') = bits bytes ++ bits bytes' :=
  List.flatMap_append

theorem bits_zeros (n : ℕ) : bits (List.replicate n 0) = List.replicate (8 * n) false := by
  induction n with
  | zero => rfl
  | succ n ih =>
    change List.replicate 8 false ++ bits (List.replicate n 0) = _
    rw [ih,List.replicate_append_replicate,Nat.mul_succ,Nat.add_comm]

/-- In bits: the message, a one, the least number of zeros that leaves room for the length, and the length. -/
theorem bits_pad (lengthField : ℕ → Octets) (message : Octets) :
    bits (pad lengthField message) = bits message ++ true :: List.replicate (zeroBits (bits message).length) false ++
      bits (lengthField (bits message).length) := by
  have hzeros : zeroBits (8 * message.length) = 7 + 8 * ((zeroBits (8 * message.length) - 7) / 8) := by
    unfold zeroBits
    omega
  have hmark : bits [0x80] = true :: List.replicate 7 false := by decide
  rw [pad,bits_append,bits_append,bits_append,bits_zeros,hmark,length_bits,List.append_assoc (bits message)]
  congr 2
  rw [List.cons_append,List.replicate_append_replicate,← hzeros]

/-- The word `t` of the block `i` of a padded message. -/
def word (read : Octets → UInt32) (padded : Octets) (i t : ℕ) : UInt32 :=
  read ((padded.drop (64 * i + 4 * t)).take 4)

def chain {σ : Type*} (compress : σ → (ℕ → UInt32) → σ) (initial : σ) (block : ℕ → ℕ → UInt32) : ℕ → σ
  | 0 => initial
  | n + 1 => compress (chain compress initial block n) (block n)

def xor (xs ys : Octets) : Octets := xs.zipWith (· ^^^ ·) ys

/-- A key of the size of a block: a longer one is hashed, and a shorter one is filled up with zeros. -/
def blockKey (hash : Octets → Octets) (size : ℕ) (key : Octets) : Octets :=
  let key := if key.length > size then hash key else key
  key ++ List.replicate (size - key.length) 0

/-- HMAC (RFC 2104), over a hash with blocks of `size` bytes. -/
def hmac (hash : Octets → Octets) (size : ℕ) (key text : Octets) : Octets :=
  let k := blockKey hash size key
  hash (xor k (List.replicate size 0x5c) ++ hash (xor k (List.replicate size 0x36) ++ text))

theorem length_blockKey {hash : Octets → Octets} {size : ℕ} (hhash : ∀ bytes, (hash bytes).length ≤ size)
    (key : Octets) : (blockKey hash size key).length = size := by
  have hle : (if key.length > size then hash key else key).length ≤ size := by
    split
    · exact hhash key
    · omega
  unfold blockKey
  simp only [List.length_append,List.length_replicate]
  omega

theorem xor_replicate {bytes : Octets} {size : ℕ} (h : bytes.length = size) (b : UInt8) :
    xor bytes (List.replicate size b) = bytes.map (b ^^^ ·) := by
  subst h
  unfold xor
  induction bytes with
  | nil => rfl
  | cons c bytes ih =>
    rw [List.length_cons,List.replicate_succ,List.zipWith_cons_cons,ih,List.map_cons,UInt8.xor_comm]

end BlockHash
end AnyKvm
