import CertAuthority.Bytes.Basic
import CertAuthority.Crypto.Modular

/-!
# The prime curves P-256, P-384 and P-521

Points of `y² = x³ - 3x + b` over a prime field.  Sums are computed in Jacobian coordinates,
where `(X, Y, Z)` stands for `(X / Z², Y / Z³)` and `Z = 0` for the point at infinity.
-/

namespace CertAuthority

inductive CurveName where
  | p256
  | p384
  | p521
  deriving Repr, DecidableEq, Inhabited

structure Curve where
  /-- The modulus of the field. -/
  p : Nat
  b : Nat
  /-- The base point. -/
  gx : Nat
  gy : Nat
  /-- The order of the base point. -/
  n : Nat
  /-- The length of a field element in bytes. -/
  size : Nat

def Curve.p256 : Curve where
  p := 0xffffffff00000001000000000000000000000000ffffffffffffffffffffffff
  b := 0x5ac635d8aa3a93e7b3ebbd55769886bc651d06b0cc53b0f63bce3c3e27d2604b
  gx := 0x6b17d1f2e12c4247f8bce6e563a440f277037d812deb33a0f4a13945d898c296
  gy := 0x4fe342e2fe1a7f9b8ee7eb4a7c0f9e162bce33576b315ececbb6406837bf51f5
  n := 0xffffffff00000000ffffffffffffffffbce6faada7179e84f3b9cac2fc632551
  size := 32

def Curve.p384 : Curve where
  p := 0xfffffffffffffffffffffffffffffffffffffffffffffffffffffffffffffffeffffffff0000000000000000ffffffff
  b := 0xb3312fa7e23ee7e4988e056be3f82d19181d9c6efe8141120314088f5013875ac656398d8a2ed19d2a85c8edd3ec2aef
  gx := 0xaa87ca22be8b05378eb1c71ef320ad746e1d3b628ba79b9859f741e082542a385502f25dbf55296c3a545e3872760ab7
  gy := 0x3617de4a96262c6f5d9e98bf9292dc29f8f41dbd289a147ce9da3113b5f0b8c00a60b1ce1d7e819d7a431d7c90ea0e5f
  n := 0xffffffffffffffffffffffffffffffffffffffffffffffffc7634d81f4372ddf581a0db248b0a77aecec196accc52973
  size := 48

def Curve.p521 : Curve where
  p := Nat.pow 2 521 - 1
  b := 0x51953eb9618e1c9a1f929a21a0b68540eea2da725b99b315f3b8b489918ef109e156193951ec7e937b1652c0bd3bb1bf073573df883d2c34f1ef451fd46b503f00
  gx := 0xc6858e06b70404e9cd9e3ecb662395b4429c648139053fb521f828af606b4d3dbaa14b5e77efe75928fe1dc127a2ffa8de3348b3c1856a429bf97e7e31c2e5bd66
  gy := 0x11839296a789a3bc0045c8a5fb42c7d1bd998f54449579b446817afbd17273e662c97ee72995ef42640c550b9013fad0761353c7086a272c24088be94769fd16650
  n := 0x1fffffffffffffffffffffffffffffffffffffffffffffffffffffffffffffffffffa51868783bf2f966b7fcc0148f709a5d03bb5c9b8899c47aebb6fb71e91386409
  size := 66

def CurveName.curve : CurveName → Curve
  | .p256 => .p256
  | .p384 => .p384
  | .p521 => .p521

/-- A point in Jacobian coordinates. -/
structure Jacobian where
  x : Nat
  y : Nat
  z : Nat
  deriving Repr, DecidableEq

namespace Curve

def infinity : Jacobian := ⟨1, 1, 0⟩

def ofAffine (x y : Nat) : Jacobian := ⟨x, y, 1⟩

def generator (c : Curve) : Jacobian := ofAffine c.gx c.gy

def isOnCurve (c : Curve) (x y : Nat) : Bool :=
  x < c.p ∧ y < c.p ∧ y * y % c.p = (x * x * x + (c.p - 3) * x + c.b) % c.p

def double (c : Curve) (a : Jacobian) : Jacobian :=
  if a.z = 0 then infinity
  else
    let delta := a.z * a.z % c.p
    let gamma := a.y * a.y % c.p
    let beta := a.x * gamma % c.p
    let alpha := 3 * Modular.sub a.x delta c.p * (a.x + delta) % c.p
    let x := Modular.sub (alpha * alpha) (8 * beta % c.p) c.p
    let sum := a.y + a.z
    let z := Modular.sub (Modular.sub (sum * sum) gamma c.p) delta c.p
    let y := Modular.sub (alpha * Modular.sub (4 * beta) x c.p) (8 * gamma * gamma % c.p) c.p
    ⟨x, y, z⟩

def add (c : Curve) (a b : Jacobian) : Jacobian :=
  if a.z = 0 then b
  else if b.z = 0 then a
  else
    let za := a.z * a.z % c.p
    let zb := b.z * b.z % c.p
    let ua := a.x * zb % c.p
    let ub := b.x * za % c.p
    let sa := a.y * (zb * b.z % c.p) % c.p
    let sb := b.y * (za * a.z % c.p) % c.p
    if ua = ub then
      if sa = sb then c.double a else infinity
    else
      let h := Modular.sub ub ua c.p
      let r := Modular.sub sb sa c.p
      let hh := h * h % c.p
      let hhh := h * hh % c.p
      let v := ua * hh % c.p
      let x := Modular.sub (Modular.sub (r * r) hhh c.p) (2 * v % c.p) c.p
      let y := Modular.sub (r * Modular.sub v x c.p) (sa * hhh % c.p) c.p
      ⟨x, y, a.z * b.z % c.p * h % c.p⟩

/-- The multiple of a point by a scalar. -/
def multiply (c : Curve) (k : Nat) (a : Jacobian) : Jacobian :=
  (Modular.bits k).foldl
    (fun acc bit =>
      let twice := c.double acc
      if bit then c.add twice a else twice)
    infinity

/-- The coordinates of a point other than infinity. -/
def toAffine (c : Curve) (a : Jacobian) : Option (Nat × Nat) :=
  if a.z = 0 then none
  else
    let inv := Modular.inverse a.z c.p
    let inv2 := inv * inv % c.p
    some (a.x * inv2 % c.p, a.y * (inv2 * inv % c.p) % c.p)

/-- A square root modulo a prime that leaves three when divided by four. -/
def squareRoot (c : Curve) (a : Nat) : Option Nat :=
  let r := Modular.pow a ((c.p + 1) / 4) c.p
  if r * r % c.p = a % c.p then some r else none

/-- The uncompressed form: a four and both coordinates. -/
def encodePoint (c : Curve) (x y : Nat) : Bytes :=
  4 :: Bytes.ofNat c.size x ++ Bytes.ofNat c.size y

/-- A point of the curve in uncompressed form. -/
def decodeUncompressed (c : Curve) (bytes : Bytes) : Option (Nat × Nat) :=
  match bytes with
  | 4 :: rest =>
    let x := Bytes.toNat (rest.take c.size)
    let y := Bytes.toNat (rest.drop c.size)
    if rest.length = 2 * c.size ∧ c.isOnCurve x y = true then some (x, y) else none
  | _ => none

/-- A point of the curve in uncompressed or compressed form. -/
def decodePoint (c : Curve) (bytes : Bytes) : Option (Nat × Nat) :=
  match bytes with
  | 4 :: _ => c.decodeUncompressed bytes
  | tag :: rest =>
    if (tag = 2 ∨ tag = 3) ∧ rest.length = c.size then
      let x := Bytes.toNat rest
      if x < c.p then
        match c.squareRoot ((x * x * x + (c.p - 3) * x + c.b) % c.p) with
        | some y => some (x, if y % 2 = (tag.toNat - 2) then y else c.p - y)
        | none => none
      else none
    else none
  | [] => none

end Curve

end CertAuthority

/-! ## ECDSA

Signatures over a curve, on a digest that is already computed.  The nonce is an argument: it
must be drawn at random for each signature.
-/

namespace CertAuthority.Ecdsa

/-- The leftmost bits of a digest, as many as the order of the base point has. -/
def digestScalar (c : Curve) (digest : Bytes) : Nat :=
  let orderBits := Nat.log2 c.n + 1
  Bytes.toNat digest >>> (8 * digest.length - orderBits)

/-- Whether `(r, s)` signs the digest under the public point. -/
def verify (c : Curve) (publicPoint : Nat × Nat) (digest : Bytes) (r s : Nat) : Bool :=
  if r = 0 ∨ c.n ≤ r ∨ s = 0 ∨ c.n ≤ s then false
  else
    let w := Modular.inverse s c.n
    let u := digestScalar c digest * w % c.n
    let v := r * w % c.n
    let sum := c.add (c.multiply u c.generator)
      (c.multiply v (Curve.ofAffine publicPoint.1 publicPoint.2))
    match c.toAffine sum with
    | some (x, _) => x % c.n = r
    | none => false

/-- The signature of a digest, or nothing for a nonce that yields none. -/
def sign? (c : Curve) (secret : Nat) (digest : Bytes) (nonce : Nat) : Option (Nat × Nat) :=
  let k := nonce % (c.n - 1) + 1
  match c.toAffine (c.multiply k c.generator) with
  | some (x, _) =>
    let r := x % c.n
    let s := Modular.inverse k c.n * (digestScalar c digest + r * secret) % c.n
    if r = 0 ∨ s = 0 then none else some (r, s)
  | none => none

/-- The public point of a secret. -/
def publicPoint (c : Curve) (secret : Nat) : Option (Nat × Nat) :=
  c.toAffine (c.multiply secret c.generator)

end CertAuthority.Ecdsa
