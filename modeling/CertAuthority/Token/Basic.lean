import CertAuthority.Identifier

/-!
# Bootstrap tokens

A token lets one agent submit one certificate request.  It ends at a fixed time and may be
bound to a Common Name and to source addresses.  Redeeming it writes down when, by whom and
from where it was used, and nothing else.
-/

namespace CertAuthority

structure BootstrapToken where
  tokenId : TokenId
  expectedCommonName : Option String
  /-- Absent or empty means that any source may use the token. -/
  allowedSourceIps : Option AddressSet
  expiresAt : Instant
  createdAt : Instant
  createdBy : String
  usedAt : Option Instant
  usedByCommonName : Option String
  usedFromIp : Option IpAddress
  comment : String
  deriving DecidableEq, Inhabited

namespace BootstrapToken

def isUsed (token : BootstrapToken) : Bool :=
  token.usedAt.isSome

/-- A token has expired from its end time on. -/
def isExpiredAt (token : BootstrapToken) (now : Instant) : Bool :=
  token.expiresAt ≤ now

def isValidAt (token : BootstrapToken) (now : Instant) : Bool :=
  !token.isUsed && !token.isExpiredAt now

/-- Whether the token may be used from an address. -/
def allowsSource (token : BootstrapToken) (source : IpAddress) : Bool :=
  match token.allowedSourceIps with
  | none => true
  | some allowed => allowed.isEmpty || allowed.contains source

/-- Decides whether the token may be redeemed; of several reasons against it the first in the
order expired, used, source, name is given. -/
def checkRedeemable (token : BootstrapToken) (now : Instant) (presented : String)
    (source : IpAddress) : Except RedeemError Unit :=
  if token.isExpiredAt now then .error .expired
  else if token.isUsed then .error .alreadyUsed
  else if !token.allowsSource source then .error (.sourceNotAllowed source.render)
  else
    match token.expectedCommonName with
    | none => .ok ()
    | some expected =>
      if expected = presented then .ok () else .error (.subjectMismatch expected presented)

def markUsed (token : BootstrapToken) (now : Instant) (commonName : String)
    (source : IpAddress) : BootstrapToken :=
  { token with
    usedAt := some now, usedByCommonName := some commonName, usedFromIp := some source }

/-- A fresh token with a given end. -/
def create (tokenId : TokenId) (expectedCommonName : Option String)
    (allowedSourceIps : Option AddressSet) (createdBy comment : String)
    (createdAt expiresAt : Instant) : BootstrapToken :=
  { tokenId, expectedCommonName, allowedSourceIps, expiresAt, createdAt, createdBy, comment
    usedAt := none, usedByCommonName := none, usedFromIp := none }

end BootstrapToken

end CertAuthority
