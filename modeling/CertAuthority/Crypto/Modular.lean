/-!
# Modular arithmetic

Powers by repeated squaring over the binary digits of the exponent, and inverses modulo a
prime as powers.
-/

namespace CertAuthority.Modular

/-- The binary digits of `n`, most significant first. -/
def bits (n : Nat) : List Bool :=
  (List.range (if n = 0 then 0 else Nat.log2 n + 1)).reverse.map n.testBit

/-- `base ^ e % m`. -/
def pow (base e m : Nat) : Nat :=
  (bits e).foldl
    (fun acc bit =>
      let square := acc * acc % m
      if bit then square * base % m else square)
    (1 % m)

/-- `(a - b) % m` for `b` below `m`. -/
def sub (a b m : Nat) : Nat :=
  (a + (m - b)) % m

/-- The inverse of `a` modulo a prime `p`. -/
def inverse (a p : Nat) : Nat :=
  pow (a % p) (p - 2) p

end CertAuthority.Modular
