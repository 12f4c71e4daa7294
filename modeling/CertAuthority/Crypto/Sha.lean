import CertAuthority.Bytes.Basic

/-!
# Secure hash algorithms

SHA-2 for all that is written, and SHA-1 for old signatures that are read.
-/

/-! ## SHA-2

SHA-256, SHA-384 and SHA-512 are one construction over words of 32 or 64 bits.  Words are
natural numbers, reduced after every addition.
-/

namespace CertAuthority.Sha2

/-- What distinguishes the members of the family. -/
structure Variant where
  wordBits : Nat
  constants : List Nat
  initial : List Nat
  outputBytes : Nat
  /-- Rotations of the two functions of the compression. -/
  sum0 : Nat × Nat × Nat
  sum1 : Nat × Nat × Nat
  /-- Two rotations and a shift of the two functions of the schedule. -/
  small0 : Nat × Nat × Nat
  small1 : Nat × Nat × Nat

namespace Variant

def wordBytes (v : Variant) : Nat := v.wordBits / 8
def blockBytes (v : Variant) : Nat := 16 * v.wordBytes
def modulus (v : Variant) : Nat := Nat.pow 2 v.wordBits

/-- Rotates a word to the right. -/
def rotate (v : Variant) (x n : Nat) : Nat :=
  (x >>> n) ||| (x <<< (v.wordBits - n)) % v.modulus

def big (v : Variant) (r : Nat × Nat × Nat) (x : Nat) : Nat :=
  v.rotate x r.1 ^^^ v.rotate x r.2.1 ^^^ v.rotate x r.2.2

def small (v : Variant) (r : Nat × Nat × Nat) (x : Nat) : Nat :=
  v.rotate x r.1 ^^^ v.rotate x r.2.1 ^^^ (x >>> r.2.2)

end Variant

/-- The message with its padding: a one bit, zeros, and the length in bits. -/
def pad (v : Variant) (message : Bytes) : Bytes :=
  let lengthBytes := 2 * v.wordBytes
  let used := (message.length + 1 + lengthBytes) % v.blockBytes
  let zeros := (v.blockBytes - used) % v.blockBytes
  message ++ 0x80 :: List.replicate zeros 0 ++ Bytes.ofNat lengthBytes (8 * message.length)

/-- Splits into `count` pieces of `size` bytes. -/
def chunks (size : Nat) : Nat → Bytes → List Bytes
  | 0, _ => []
  | count + 1, bytes => bytes.take size :: chunks size count (bytes.drop size)

/-- The eight working words. -/
structure Working where
  a : Nat
  b : Nat
  c : Nat
  d : Nat
  e : Nat
  f : Nat
  g : Nat
  h : Nat

/-- The next word of the schedule after a window of sixteen. -/
def nextWord (v : Variant) (window : List Nat) : Nat :=
  match window with
  | [w0, w1, _, _, _, _, _, _, _, w9, _, _, _, _, w14, _] =>
    (v.small v.small1 w14 + w9 + v.small v.small0 w1 + w0) % v.modulus
  | _ => 0

/-- One round with its constant; the window moves on by a word. -/
def round (v : Variant) (s : Working × List Nat) (k : Nat) : Working × List Nat :=
  let (x, window) := s
  let ones := v.modulus - 1
  let choice := (x.e &&& x.f) ^^^ ((ones ^^^ x.e) &&& x.g)
  let t1 := x.h + v.big v.sum1 x.e + choice + k + window.headD 0
  let majority := (x.a &&& x.b) ^^^ (x.a &&& x.c) ^^^ (x.b &&& x.c)
  let t2 := v.big v.sum0 x.a + majority
  ({ a := (t1 + t2) % v.modulus, b := x.a, c := x.b, d := x.c
     e := (x.d + t1) % v.modulus, f := x.e, g := x.f, h := x.g },
    window.tail ++ [nextWord v window])

def compress (v : Variant) (state : List Nat) (block : Bytes) : List Nat :=
  match state with
  | [a, b, c, d, e, f, g, h] =>
    let window := (chunks v.wordBytes 16 block).map Bytes.toNat
    let (x, _) := v.constants.foldl (round v) (⟨a, b, c, d, e, f, g, h⟩, window)
    [a + x.a, b + x.b, c + x.c, d + x.d, e + x.e, f + x.f, g + x.g, h + x.h].map (· % v.modulus)
  | _ => state

def digest (v : Variant) (message : Bytes) : Bytes :=
  let padded := pad v message
  let blocks := chunks v.blockBytes (padded.length / v.blockBytes) padded
  let state := blocks.foldl (compress v) v.initial
  (state.flatMap (Bytes.ofNat v.wordBytes)).take v.outputBytes

/-- The first 32 bits of the fractions of the cube roots of the first 64 primes. -/
def constants32 : List Nat :=
  [0x428a2f98, 0x71374491, 0xb5c0fbcf, 0xe9b5dba5, 0x3956c25b, 0x59f111f1, 0x923f82a4,
    0xab1c5ed5, 0xd807aa98, 0x12835b01, 0x243185be, 0x550c7dc3, 0x72be5d74, 0x80deb1fe,
    0x9bdc06a7, 0xc19bf174, 0xe49b69c1, 0xefbe4786, 0x0fc19dc6, 0x240ca1cc, 0x2de92c6f,
    0x4a7484aa, 0x5cb0a9dc, 0x76f988da, 0x983e5152, 0xa831c66d, 0xb00327c8, 0xbf597fc7,
    0xc6e00bf3, 0xd5a79147, 0x06ca6351, 0x14292967, 0x27b70a85, 0x2e1b2138, 0x4d2c6dfc,
    0x53380d13, 0x650a7354, 0x766a0abb, 0x81c2c92e, 0x92722c85, 0xa2bfe8a1, 0xa81a664b,
    0xc24b8b70, 0xc76c51a3, 0xd192e819, 0xd6990624, 0xf40e3585, 0x106aa070, 0x19a4c116,
    0x1e376c08, 0x2748774c, 0x34b0bcb5, 0x391c0cb3, 0x4ed8aa4a, 0x5b9cca4f, 0x682e6ff3,
    0x748f82ee, 0x78a5636f, 0x84c87814, 0x8cc70208, 0x90befffa, 0xa4506ceb, 0xbef9a3f7,
    0xc67178f2]

/-- The first 64 bits of the fractions of the cube roots of the first 80 primes. -/
def constants64 : List Nat :=
  [0x428a2f98d728ae22, 0x7137449123ef65cd, 0xb5c0fbcfec4d3b2f, 0xe9b5dba58189dbbc,
    0x3956c25bf348b538, 0x59f111f1b605d019, 0x923f82a4af194f9b, 0xab1c5ed5da6d8118,
    0xd807aa98a3030242, 0x12835b0145706fbe, 0x243185be4ee4b28c, 0x550c7dc3d5ffb4e2,
    0x72be5d74f27b896f, 0x80deb1fe3b1696b1, 0x9bdc06a725c71235, 0xc19bf174cf692694,
    0xe49b69c19ef14ad2, 0xefbe4786384f25e3, 0x0fc19dc68b8cd5b5, 0x240ca1cc77ac9c65,
    0x2de92c6f592b0275, 0x4a7484aa6ea6e483, 0x5cb0a9dcbd41fbd4, 0x76f988da831153b5,
    0x983e5152ee66dfab, 0xa831c66d2db43210, 0xb00327c898fb213f, 0xbf597fc7beef0ee4,
    0xc6e00bf33da88fc2, 0xd5a79147930aa725, 0x06ca6351e003826f, 0x142929670a0e6e70,
    0x27b70a8546d22ffc, 0x2e1b21385c26c926, 0x4d2c6dfc5ac42aed, 0x53380d139d95b3df,
    0x650a73548baf63de, 0x766a0abb3c77b2a8, 0x81c2c92e47edaee6, 0x92722c851482353b,
    0xa2bfe8a14cf10364, 0xa81a664bbc423001, 0xc24b8b70d0f89791, 0xc76c51a30654be30,
    0xd192e819d6ef5218, 0xd69906245565a910, 0xf40e35855771202a, 0x106aa07032bbd1b8,
    0x19a4c116b8d2d0c8, 0x1e376c085141ab53, 0x2748774cdf8eeb99, 0x34b0bcb5e19b48a8,
    0x391c0cb3c5c95a63, 0x4ed8aa4ae3418acb, 0x5b9cca4f7763e373, 0x682e6ff3d6b2b8a3,
    0x748f82ee5defb2fc, 0x78a5636f43172f60, 0x84c87814a1f0ab72, 0x8cc702081a6439ec,
    0x90befffa23631e28, 0xa4506cebde82bde9, 0xbef9a3f7b2c67915, 0xc67178f2e372532b,
    0xca273eceea26619c, 0xd186b8c721c0c207, 0xeada7dd6cde0eb1e, 0xf57d4f7fee6ed178,
    0x06f067aa72176fba, 0x0a637dc5a2c898a6, 0x113f9804bef90dae, 0x1b710b35131c471b,
    0x28db77f523047d84, 0x32caab7b40c72493, 0x3c9ebe0a15c9bebc, 0x431d67c49c100d4c,
    0x4cc5d4becb3e42b6, 0x597f299cfc657e2a, 0x5fcb6fab3ad6faec, 0x6c44198c4a475817]

def variant256 : Variant where
  wordBits := 32
  constants := constants32
  initial :=
    [0x6a09e667, 0xbb67ae85, 0x3c6ef372, 0xa54ff53a, 0x510e527f, 0x9b05688c, 0x1f83d9ab,
      0x5be0cd19]
  outputBytes := 32
  sum0 := (2, 13, 22)
  sum1 := (6, 11, 25)
  small0 := (7, 18, 3)
  small1 := (17, 19, 10)

def variant512 : Variant where
  wordBits := 64
  constants := constants64
  initial :=
    [0x6a09e667f3bcc908, 0xbb67ae8584caa73b, 0x3c6ef372fe94f82b, 0xa54ff53a5f1d36f1,
      0x510e527fade682d1, 0x9b05688c2b3e6c1f, 0x1f83d9abfb41bd6b, 0x5be0cd19137e2179]
  outputBytes := 64
  sum0 := (28, 34, 39)
  sum1 := (14, 18, 41)
  small0 := (1, 8, 7)
  small1 := (19, 61, 6)

def variant384 : Variant :=
  { variant512 with
    initial :=
      [0xcbbb9d5dc1059ed8, 0x629a292a367cd507, 0x9159015a3070dd17, 0x152fecd8f70e5939,
        0x67332667ffc00b31, 0x8eb44a8768581511, 0xdb0c2e0d64f98fa7, 0x47b5481dbefa4fa4]
    outputBytes := 48 }

def sha256 (message : Bytes) : Bytes := digest variant256 message
def sha384 (message : Bytes) : Bytes := digest variant384 message
def sha512 (message : Bytes) : Bytes := digest variant512 message

end CertAuthority.Sha2

/-! ## SHA-1

Eighty rounds over five words of 32 bits.  It is used only to read old signatures.
-/

namespace CertAuthority.Sha1

def modulus : Nat := Nat.pow 2 32

/-- Rotates a word of 32 bits to the left. -/
def rotate (x n : Nat) : Nat :=
  (x <<< n) % modulus ||| (x >>> (32 - n))

structure Working where
  a : Nat
  b : Nat
  c : Nat
  d : Nat
  e : Nat

/-- The mixing function and the constant of a round. -/
def mixing (t : Nat) (b c d : Nat) : Nat × Nat :=
  if t < 20 then ((b &&& c) ||| (((modulus - 1) ^^^ b) &&& d), 0x5a827999)
  else if t < 40 then (b ^^^ c ^^^ d, 0x6ed9eba1)
  else if t < 60 then ((b &&& c) ||| (b &&& d) ||| (c &&& d), 0x8f1bbcdc)
  else (b ^^^ c ^^^ d, 0xca62c1d6)

/-- The next word of the schedule after a window of sixteen. -/
def nextWord (window : List Nat) : Nat :=
  match window with
  | [w0, _, w2, _, _, _, _, _, w8, _, _, _, _, w13, _, _] => rotate (w13 ^^^ w8 ^^^ w2 ^^^ w0) 1
  | _ => 0

def round (s : Working × List Nat) (t : Nat) : Working × List Nat :=
  let (x, window) := s
  let (f, k) := mixing t x.b x.c x.d
  let a := (rotate x.a 5 + f + x.e + k + window.headD 0) % modulus
  (⟨a, x.a, rotate x.b 30, x.c, x.d⟩, window.tail ++ [nextWord window])

def compress (state : List Nat) (block : Bytes) : List Nat :=
  match state with
  | [a, b, c, d, e] =>
    let window := (Sha2.chunks 4 16 block).map Bytes.toNat
    let (x, _) := (List.range 80).foldl round (⟨a, b, c, d, e⟩, window)
    [a + x.a, b + x.b, c + x.c, d + x.d, e + x.e].map (· % modulus)
  | _ => state

def digest (message : Bytes) : Bytes :=
  let padded := Sha2.pad Sha2.variant256 message
  let state := (Sha2.chunks 64 (padded.length / 64) padded).foldl compress
    [0x67452301, 0xefcdab89, 0x98badcfe, 0x10325476, 0xc3d2e1f0]
  state.flatMap (Bytes.ofNat 4)

end CertAuthority.Sha1
