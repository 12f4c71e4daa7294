import CertAuthority.Net.Address

/-!
# Sets of addresses

A set is its addresses in strictly ascending order, so that two sets with the same members
are equal and a set is always listed in one order.
-/

namespace CertAuthority

namespace IpAddress

theorem lt_trans {x y z : IpAddress} (hxy : x < y) (hyz : y < z) : x < z := by
  change _ ∨ _ at hxy hyz
  show _ ∨ _
  omega

/-- Inserts an address into addresses in ascending order, unless one of its rank is there. -/
def insertSorted (x : IpAddress) : List IpAddress → List IpAddress
  | [] => [x]
  | y :: rest =>
    if x < y then x :: y :: rest
    else if y < x then y :: insertSorted x rest
    else y :: rest

theorem mem_of_mem_insertSorted {x z : IpAddress} {ys : List IpAddress}
    (h : z ∈ insertSorted x ys) : z = x ∨ z ∈ ys := by
  induction ys with
  | nil => simpa [insertSorted] using h
  | cons y rest ih =>
    unfold insertSorted at h
    split at h
    · simpa using h
    · split at h
      · rcases List.mem_cons.1 h with rfl | h
        · simp
        · rcases ih h with h | h <;> simp [h]
      · exact .inr h

theorem pairwise_insertSorted (x : IpAddress) {ys : List IpAddress}
    (h : ys.Pairwise (· < ·)) : (insertSorted x ys).Pairwise (· < ·) := by
  induction ys with
  | nil => simp [insertSorted]
  | cons y rest ih =>
    have hrest := List.pairwise_cons.1 h
    unfold insertSorted
    split
    · next hlt =>
      refine List.pairwise_cons.2 ⟨fun z hz => ?_, h⟩
      rcases List.mem_cons.1 hz with rfl | hz
      · exact hlt
      · exact lt_trans hlt (hrest.1 z hz)
    · split
      · next hlt =>
        refine List.pairwise_cons.2 ⟨fun z hz => ?_, ih hrest.2⟩
        rcases mem_of_mem_insertSorted hz with rfl | hz
        · exact hlt
        · exact hrest.1 z hz
      · exact h

end IpAddress

structure AddressSet where
  addresses : List IpAddress
  ascending : addresses.Pairwise (· < ·)
  deriving DecidableEq

namespace AddressSet

def empty : AddressSet := ⟨[], .nil⟩

def insert (set : AddressSet) (x : IpAddress) : AddressSet :=
  ⟨x.insertSorted set.addresses, IpAddress.pairwise_insertSorted x set.ascending⟩

def ofList (xs : List IpAddress) : AddressSet :=
  xs.foldl insert empty

def isEmpty (set : AddressSet) : Bool :=
  set.addresses.isEmpty

def contains (set : AddressSet) (x : IpAddress) : Bool :=
  set.addresses.contains x

instance : Inhabited AddressSet := ⟨empty⟩

end AddressSet

end CertAuthority
