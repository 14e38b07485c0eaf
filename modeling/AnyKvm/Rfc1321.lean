import AnyKvm.BlockHash

/-! MD5 as RFC 1321 has it: four registers in their places, and for each block four rounds of sixteen operations
that are written out. -/
namespace AnyKvm
namespace Rfc1321

open BlockHash

def F (X Y Z : UInt32) : UInt32 := X &&& Y ||| ~~~X &&& Z

def G (X Y Z : UInt32) : UInt32 := X &&& Z ||| Y &&& ~~~Z

def H (X Y Z : UInt32) : UInt32 := X ^^^ Y ^^^ Z

def I (X Y Z : UInt32) : UInt32 := Y ^^^ (X ||| ~~~Z)

structure Registers where
  A : UInt32
  B : UInt32
  C : UInt32
  D : UInt32
  deriving DecidableEq

/-- Which registers take the four places of an operation. -/
inductive Order
  | abcd | dabc | cdab | bcda
  deriving DecidableEq

/-- `[abcd k s i]`. -/
structure Operation where
  order : Order
  k : ℕ
  s : ℕ
  i : ℕ
  deriving DecidableEq

def round1 : List Operation :=
  [⟨.abcd,0,7,1⟩,⟨.dabc,1,12,2⟩,⟨.cdab,2,17,3⟩,⟨.bcda,3,22,4⟩,
    ⟨.abcd,4,7,5⟩,⟨.dabc,5,12,6⟩,⟨.cdab,6,17,7⟩,⟨.bcda,7,22,8⟩,
    ⟨.abcd,8,7,9⟩,⟨.dabc,9,12,10⟩,⟨.cdab,10,17,11⟩,⟨.bcda,11,22,12⟩,
    ⟨.abcd,12,7,13⟩,⟨.dabc,13,12,14⟩,⟨.cdab,14,17,15⟩,⟨.bcda,15,22,16⟩]

def round2 : List Operation :=
  [⟨.abcd,1,5,17⟩,⟨.dabc,6,9,18⟩,⟨.cdab,11,14,19⟩,⟨.bcda,0,20,20⟩,
    ⟨.abcd,5,5,21⟩,⟨.dabc,10,9,22⟩,⟨.cdab,15,14,23⟩,⟨.bcda,4,20,24⟩,
    ⟨.abcd,9,5,25⟩,⟨.dabc,14,9,26⟩,⟨.cdab,3,14,27⟩,⟨.bcda,8,20,28⟩,
    ⟨.abcd,13,5,29⟩,⟨.dabc,2,9,30⟩,⟨.cdab,7,14,31⟩,⟨.bcda,12,20,32⟩]

def round3 : List Operation :=
  [⟨.abcd,5,4,33⟩,⟨.dabc,8,11,34⟩,⟨.cdab,11,16,35⟩,⟨.bcda,14,23,36⟩,
    ⟨.abcd,1,4,37⟩,⟨.dabc,4,11,38⟩,⟨.cdab,7,16,39⟩,⟨.bcda,10,23,40⟩,
    ⟨.abcd,13,4,41⟩,⟨.dabc,0,11,42⟩,⟨.cdab,3,16,43⟩,⟨.bcda,6,23,44⟩,
    ⟨.abcd,9,4,45⟩,⟨.dabc,12,11,46⟩,⟨.cdab,15,16,47⟩,⟨.bcda,2,23,48⟩]

def round4 : List Operation :=
  [⟨.abcd,0,6,49⟩,⟨.dabc,7,10,50⟩,⟨.cdab,14,15,51⟩,⟨.bcda,5,21,52⟩,
    ⟨.abcd,12,6,53⟩,⟨.dabc,3,10,54⟩,⟨.cdab,10,15,55⟩,⟨.bcda,1,21,56⟩,
    ⟨.abcd,8,6,57⟩,⟨.dabc,15,10,58⟩,⟨.cdab,6,15,59⟩,⟨.bcda,13,21,60⟩,
    ⟨.abcd,4,6,61⟩,⟨.dabc,11,10,62⟩,⟨.cdab,2,15,63⟩,⟨.bcda,9,21,64⟩]

/-- The table: `T i` is the integer part of 4294967296 times abs(sin(i)). -/
def table : List UInt32 :=
  [0xd76aa478,0xe8c7b756,0x242070db,0xc1bdceee,0xf57c0faf,0x4787c62a,0xa8304613,0xfd469501,
    0x698098d8,0x8b44f7af,0xffff5bb1,0x895cd7be,0x6b901122,0xfd987193,0xa679438e,0x49b40821,
    0xf61e2562,0xc040b340,0x265e5a51,0xe9b6c7aa,0xd62f105d,0x02441453,0xd8a1e681,0xe7d3fbc8,
    0x21e1cde6,0xc33707d6,0xf4d50d87,0x455a14ed,0xa9e3e905,0xfcefa3f8,0x676f02d9,0x8d2a4c8a,
    0xfffa3942,0x8771f681,0x6d9d6122,0xfde5380c,0xa4beea44,0x4bdecfa9,0xf6bb4b60,0xbebfbc70,
    0x289b7ec6,0xeaa127fa,0xd4ef3085,0x04881d05,0xd9d4d039,0xe6db99e5,0x1fa27cf8,0xc4ac5665,
    0xf4292244,0x432aff97,0xab9423a7,0xfc93a039,0x655b59c3,0x8f0ccc92,0xffeff47d,0x85845dd1,
    0x6fa87e4f,0xfe2ce6e0,0xa3014314,0x4e0811a1,0xf7537e82,0xbd3af235,0x2ad7d2bb,0xeb86d391]

def T (i : ℕ) : UInt32 := table.getD (i - 1) 0

/-- `a = b + ((a + f(b,c,d) + X[k] + T[i]) <<< s)` -/
def assign (f : UInt32 → UInt32 → UInt32 → UInt32) (X : ℕ → UInt32) (op : Operation) (a b c d : UInt32) : UInt32 :=
  b + rotl op.s (a + f b c d + X op.k + T op.i)

def operate (f : UInt32 → UInt32 → UInt32 → UInt32) (X : ℕ → UInt32) (r : Registers) (op : Operation) : Registers :=
  match op.order with
  | .abcd => { r with A := assign f X op r.A r.B r.C r.D }
  | .dabc => { r with D := assign f X op r.D r.A r.B r.C }
  | .cdab => { r with C := assign f X op r.C r.D r.A r.B }
  | .bcda => { r with B := assign f X op r.B r.C r.D r.A }

def block (r : Registers) (X : ℕ → UInt32) : Registers :=
  let s := round1.foldl (operate F X) r
  let s := round2.foldl (operate G X) s
  let s := round3.foldl (operate H X) s
  let s := round4.foldl (operate I X) s
  ⟨s.A + r.A,s.B + r.B,s.C + r.C,s.D + r.D⟩

def initial : Registers := ⟨0x67452301,0xefcdab89,0x98badcfe,0x10325476⟩

/-- Of a longer message, the low 64 bits of the length are used. -/
def md5 (message : Octets) : Octets :=
  let padded := pad (littleEndianBytes 8) message
  let r := chain block initial (word littleEndian padded) (padded.length / 64)
  [r.A,r.B,r.C,r.D].flatMap fun x => littleEndianBytes 4 x.toNat

end Rfc1321
end AnyKvm
