import CertAuthority.Crypto.Modular
import CertAuthority.Crypto.Sha

/-!
# Ed25519

Signatures over the twisted Edwards curve `-x² + y² = 1 + d x² y²` modulo `2²⁵⁵ - 19`, with
SHA-512.  Points are added in extended coordinates `(X, Y, Z, T)` with `T = XY / Z`.
-/

namespace CertAuthority.Ed25519

def p : Nat := Nat.pow 2 255 - 19

/-- The order of the base point. -/
def order : Nat := Nat.pow 2 252 + 27742317777372353535851937790883648493

def d : Nat := 37095705934669439343138083508754565189542113879843219016388785533085940283555

/-- A square root of minus one. -/
def rootOfMinusOne : Nat := 19681161376707505956807079304988542015446066515923890162744021073123829784752

structure Point where
  x : Nat
  y : Nat
  z : Nat
  t : Nat
  deriving Repr, DecidableEq

def identity : Point := ⟨0, 1, 1, 0⟩

def ofAffine (x y : Nat) : Point := ⟨x, y, 1, x * y % p⟩

def generator : Point :=
  ofAffine 15112221349535400772501151409588531511454012693041857206046113283949847762202
    46316835694926478169428394003475163141307993866256225615783033603165251855960

def add (a b : Point) : Point :=
  let u := Modular.sub a.y a.x p * Modular.sub b.y b.x p % p
  let v := (a.y + a.x) * (b.y + b.x) % p
  let w := 2 * d * a.t % p * b.t % p
  let z := 2 * a.z * b.z % p
  let e := Modular.sub v u p
  let f := Modular.sub z w p
  let g := (z + w) % p
  let h := (v + u) % p
  ⟨e * f % p, g * h % p, f * g % p, e * h % p⟩

def multiply (k : Nat) (a : Point) : Point :=
  (Modular.bits k).foldl
    (fun acc bit =>
      let twice := add acc acc
      if bit then add twice a else twice)
    identity

def negate (a : Point) : Point :=
  { a with x := Modular.sub 0 (a.x % p) p, t := Modular.sub 0 (a.t % p) p }

/-- Little-endian bytes of a number. -/
def encodeNat (n : Nat) : Bytes :=
  (Bytes.ofNat 32 n).reverse

def decodeNat (bytes : Bytes) : Nat :=
  Bytes.toNat bytes.reverse

/-- A point as the bytes of `y`, with the lowest bit of `x` on top. -/
def encodePoint (a : Point) : Bytes :=
  let inv := Modular.inverse a.z p
  let x := a.x * inv % p
  let y := a.y * inv % p
  encodeNat (y + (x % 2) * Nat.pow 2 255)

/-- The `x` of a given `y` with a given lowest bit. -/
def recoverX (y parity : Nat) : Option Nat :=
  let u := Modular.sub (y * y) 1 p
  let v := (d * (y * y % p) + 1) % p
  let v3 := v * v % p * v % p
  let v7 := v3 * v3 % p * v % p
  let r := u * v3 % p * Modular.pow (u * v7 % p) ((p - 5) / 8) p % p
  let check := v * (r * r % p) % p
  let root :=
    if check = u then some r
    else if check = Modular.sub 0 u p then some (r * rootOfMinusOne % p)
    else none
  root.map fun x => if x % 2 = parity then x else Modular.sub 0 x p

def decodePoint (bytes : Bytes) : Option Point :=
  if bytes.length ≠ 32 then none
  else
    let n := decodeNat bytes
    let y := n % Nat.pow 2 255 % p
    (recoverX y (n / Nat.pow 2 255)).map fun x => ofAffine x y

/-- The secret scalar and the seed of nonces of a 32-byte secret. -/
def expand (secret : Bytes) : Nat × Bytes :=
  let h := Sha2.sha512 secret
  let n := decodeNat (h.take 32)
  (n % Nat.pow 2 254 / 8 * 8 + Nat.pow 2 254, h.drop 32)

def publicKey (secret : Bytes) : Bytes :=
  encodePoint (multiply (expand secret).1 generator)

def sign (secret message : Bytes) : Bytes :=
  let (a, seed) := expand secret
  let key := publicKey secret
  let r := decodeNat (Sha2.sha512 (seed ++ message)) % order
  let point := encodePoint (multiply r generator)
  let k := decodeNat (Sha2.sha512 (point ++ key ++ message)) % order
  point ++ encodeNat ((r + k * a) % order)

def verify (key message signature : Bytes) : Bool :=
  match decodePoint key with
  | none => false
  | some a =>
    let point := signature.take 32
    let s := decodeNat (signature.drop 32)
    if signature.length ≠ 64 ∨ order ≤ s then false
    else
      let k := decodeNat (Sha2.sha512 (point ++ key ++ message)) % order
      encodePoint (add (multiply s generator) (multiply k (negate a))) = point

end CertAuthority.Ed25519
