import CertAuthority.Authority.Issuance
import CertAuthority.Caller.Identity
import CertAuthority.Certificate.Registry
import CertAuthority.Csr.Validated

/-!
# Renewing certificates

A caller whose identity the transport has verified gets a new certificate for the same name,
unless the certificate that it presents is revoked.
-/

namespace CertAuthority.Renewal

/-- Refuses a caller whose certificate is revoked. -/
def checkRevocation (caller : CallerIdentity) : Procedure Unit :=
  match caller.serialNumber with
  | none => .done ()
  | some serial => do
    if ← Registry.isRevoked serial then .error (.certificateRevoked serial.text)

def renew (a : Authority) (days : Nat) (csrPem : String) (caller : CallerIdentity) :
    Procedure IssuedCertificate :=
  match Csr.validate csrPem with
  | .error e => .error e
  | .ok csr =>
    if caller.commonName ≠ csr.identity.commonName then
      .error (.identityMismatch caller.commonName csr.identity.commonName)
    else do
      checkRevocation caller
      let issued ← a.sign csr.pem days .autoRenewal
      Registry.record issued
      return issued

end CertAuthority.Renewal
