import AnyKvm.BlockHash

/-! SHA-1 as FIPS 180-4 has it: the functions and constants by the number of the round, the message schedule as
a recurrence, and the hash values of one block from those of the block before. -/
namespace AnyKvm
namespace Fips180

open BlockHash

def ch (x y z : UInt32) : UInt32 := (x &&& y) ^^^ (~~~x &&& z)

def parity (x y z : UInt32) : UInt32 := x ^^^ y ^^^ z

def maj (x y z : UInt32) : UInt32 := (x &&& y) ^^^ (x &&& z) ^^^ (y &&& z)

def f (t : ℕ) : UInt32 → UInt32 → UInt32 → UInt32 :=
  if t ≤ 19 then ch else if t ≤ 39 then parity else if t ≤ 59 then maj else parity

def constant (t : ℕ) : UInt32 :=
  if t ≤ 19 then 0x5a827999 else if t ≤ 39 then 0x6ed9eba1 else if t ≤ 59 then 0x8f1bbcdc else 0xca62c1d6

def schedule (M : ℕ → UInt32) (t : ℕ) : UInt32 :=
  if t < 16 then M t
  else rotl 1 (schedule M (t - 3) ^^^ schedule M (t - 8) ^^^ schedule M (t - 14) ^^^ schedule M (t - 16))

/-- The five working variables, and the five words of a hash value. -/
structure Vars where
  a : UInt32
  b : UInt32
  c : UInt32
  d : UInt32
  e : UInt32
  deriving DecidableEq

def step (W : ℕ → UInt32) (t : ℕ) (v : Vars) : Vars :=
  let T := rotl 5 v.a + f t v.b v.c v.d + v.e + constant t + W t
  ⟨T,v.a,rotl 30 v.b,v.c,v.d⟩

def rounds (W : ℕ → UInt32) (H : Vars) : ℕ → Vars
  | 0 => H
  | t + 1 => step W t (rounds W H t)

def compress (H : Vars) (M : ℕ → UInt32) : Vars :=
  let v := rounds (schedule M) H 80
  ⟨v.a + H.a,v.b + H.b,v.c + H.c,v.d + H.d,v.e + H.e⟩

def initial : Vars := ⟨0x67452301,0xefcdab89,0x98badcfe,0x10325476,0xc3d2e1f0⟩

/-- The standard ends at messages of 2^64 bits, whose length has no room in eight bytes. -/
def sha1 (message : Octets) : Octets :=
  let padded := pad (bigEndianBytes 8) message
  let H := chain compress initial (word bigEndian padded) (padded.length / 64)
  [H.a,H.b,H.c,H.d,H.e].flatMap fun h => bigEndianBytes 4 h.toNat

end Fips180
end AnyKvm
