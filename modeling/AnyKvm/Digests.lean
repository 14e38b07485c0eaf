import AnyKvm.StunClient

/-! `webrtc.rs`: the MD5 and SHA-1 of the credentials, block by block as they are written there. -/
namespace AnyKvm
namespace Turn

open Bytes

def rotateLeft (x n : UInt32) : UInt32 := x <<< n ||| x >>> (32 - n)

/-- A message with its end mark and with zeros up to the length field. -/
def padded (data length : Bytes) : Bytes :=
  data ++ [0x80] ++ List.replicate ((119 - data.length % 64) % 64) 0 ++ length

def chunks (data : Bytes) : List Bytes :=
  (List.range (data.length / 64)).map fun i => (data.drop (64 * i)).take 64

/-- No chunk of a padded message is cut short, so the reads of its words are in range. -/
theorem length_padded_mod (data : Bytes) {length : Bytes} (h : length.length = 8) :
    (padded data length).length % 64 = 0 := by
  unfold padded
  simp only [List.length_append,List.length_replicate,List.length_singleton,h]
  omega

def words (read : UInt8 → UInt8 → UInt8 → UInt8 → UInt32) (chunk : Bytes) : List UInt32 :=
  (List.range 16).map fun i =>
    read (chunk.getD (4 * i) 0) (chunk.getD (4 * i + 1) 0) (chunk.getD (4 * i + 2) 0) (chunk.getD (4 * i + 3) 0)

def u32FromLeBytes (b₀ b₁ b₂ b₃ : UInt8) : UInt32 := u32FromBeBytes b₃ b₂ b₁ b₀

def u32ToLeBytes (v : UInt32) : Bytes := (u32ToBeBytes v).reverse

/-- MD5 (RFC 1321). -/
structure Md5State where
  a : UInt32
  b : UInt32
  c : UInt32
  d : UInt32

def md5S : List (List UInt32) := [[7,12,17,22],[5,9,14,20],[4,11,16,23],[6,10,15,21]]

def md5K : List UInt32 :=
  [0xd76aa478,0xe8c7b756,0x242070db,0xc1bdceee,0xf57c0faf,0x4787c62a,0xa8304613,0xfd469501,
    0x698098d8,0x8b44f7af,0xffff5bb1,0x895cd7be,0x6b901122,0xfd987193,0xa679438e,0x49b40821,
    0xf61e2562,0xc040b340,0x265e5a51,0xe9b6c7aa,0xd62f105d,0x02441453,0xd8a1e681,0xe7d3fbc8,
    0x21e1cde6,0xc33707d6,0xf4d50d87,0x455a14ed,0xa9e3e905,0xfcefa3f8,0x676f02d9,0x8d2a4c8a,
    0xfffa3942,0x8771f681,0x6d9d6122,0xfde5380c,0xa4beea44,0x4bdecfa9,0xf6bb4b60,0xbebfbc70,
    0x289b7ec6,0xeaa127fa,0xd4ef3085,0x04881d05,0xd9d4d039,0xe6db99e5,0x1fa27cf8,0xc4ac5665,
    0xf4292244,0x432aff97,0xab9423a7,0xfc93a039,0x655b59c3,0x8f0ccc92,0xffeff47d,0x85845dd1,
    0x6fa87e4f,0xfe2ce6e0,0xa3014314,0x4e0811a1,0xf7537e82,0xbd3af235,0x2ad7d2bb,0xeb86d391]

def md5Mix (s : Md5State) (i : ℕ) : UInt32 × ℕ :=
  if i < 16 then ((s.b &&& s.c) ||| (~~~s.b &&& s.d),i)
  else if i < 32 then ((s.d &&& s.b) ||| (~~~s.d &&& s.c),(5 * i + 1) % 16)
  else if i < 48 then (s.b ^^^ s.c ^^^ s.d,(3 * i + 5) % 16)
  else (s.c ^^^ (s.b ||| ~~~s.d),7 * i % 16)

def md5Round (m : List UInt32) (s : Md5State) (i : ℕ) : Md5State :=
  let (f,g) := md5Mix s i
  { a := s.d, d := s.c, c := s.b,
    b := s.b + rotateLeft (s.a + f + md5K.getD i 0 + m.getD g 0) ((md5S.getD (i / 16) []).getD (i % 4) 0) }

def md5Chunk (s : Md5State) (chunk : Bytes) : Md5State :=
  let r := (List.range 64).foldl (md5Round (words u32FromLeBytes chunk)) s
  ⟨s.a + r.a,s.b + r.b,s.c + r.c,s.d + r.d⟩

def md5Hash (data : Bytes) : Bytes :=
  let length := (u64ToBeBytes (UInt64.ofNat data.length * 8)).reverse
  let s := (chunks (padded data length)).foldl md5Chunk ⟨0x67452301,0xefcdab89,0x98badcfe,0x10325476⟩
  u32ToLeBytes s.a ++ u32ToLeBytes s.b ++ u32ToLeBytes s.c ++ u32ToLeBytes s.d

/-- SHA-1 (FIPS 180-4). -/
structure Sha1State where
  a : UInt32
  b : UInt32
  c : UInt32
  d : UInt32
  e : UInt32

def sha1Schedule (chunk : Bytes) : List UInt32 :=
  (List.range 64).foldl (fun w i =>
    w ++ [rotateLeft (w.getD (i + 13) 0 ^^^ w.getD (i + 8) 0 ^^^ w.getD (i + 2) 0 ^^^ w.getD i 0) 1])
    (words u32FromBeBytes chunk)

def sha1Mix (s : Sha1State) (i : ℕ) : UInt32 × UInt32 :=
  if i < 20 then ((s.b &&& s.c) ||| (~~~s.b &&& s.d),0x5A827999)
  else if i < 40 then (s.b ^^^ s.c ^^^ s.d,0x6ED9EBA1)
  else if i < 60 then ((s.b &&& s.c) ||| (s.b &&& s.d) ||| (s.c &&& s.d),0x8F1BBCDC)
  else (s.b ^^^ s.c ^^^ s.d,0xCA62C1D6)

def sha1Round (w : List UInt32) (s : Sha1State) (i : ℕ) : Sha1State :=
  let (f,k) := sha1Mix s i
  { a := rotateLeft s.a 5 + f + s.e + k + w.getD i 0, b := s.a, c := rotateLeft s.b 30, d := s.c, e := s.d }

def sha1Chunk (s : Sha1State) (chunk : Bytes) : Sha1State :=
  let r := (List.range 80).foldl (sha1Round (sha1Schedule chunk)) s
  ⟨s.a + r.a,s.b + r.b,s.c + r.c,s.d + r.d,s.e + r.e⟩

def sha1Hash (data : Bytes) : Bytes :=
  let length := u64ToBeBytes (UInt64.ofNat data.length * 8)
  let s := (chunks (padded data length)).foldl sha1Chunk
    ⟨0x67452301,0xEFCDAB89,0x98BADCFE,0x10325476,0xC3D2E1F0⟩
  u32ToBeBytes s.a ++ u32ToBeBytes s.b ++ u32ToBeBytes s.c ++ u32ToBeBytes s.d ++ u32ToBeBytes s.e

def hmacSha1 (key data : Bytes) : Bytes :=
  let short := if key.length > 64 then sha1Hash key else key
  let k := short ++ List.replicate (64 - short.length) 0
  let inner := sha1Hash (k.map (0x36 ^^^ ·) ++ data)
  sha1Hash (k.map (0x5c ^^^ ·) ++ inner)

theorem length_hmacSha1 (key data : Bytes) : (hmacSha1 key data).length = 20 := rfl

end Turn
end AnyKvm
