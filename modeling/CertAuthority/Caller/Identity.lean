import CertAuthority.Authority.Basic
import CertAuthority.Identifier
import CertAuthority.Text.Character
import CertAuthority.X509.Trust

/-!
# Callers

Who makes a request, as far as the transport has verified it: by a distinguished name that a proxy
forwards, or by the certificate that the client presents.
-/

/-! ## Distinguished names as a proxy forwards them

A forwarded name is a list of attributes with commas between them.  A backslash takes the next
character as it is, so that a value may hold commas and backslashes.
-/

namespace CertAuthority.ForwardedName

/-- Splits at the commas that no backslash precedes.  `current` is the part read so far, in
reverse, and `escaped` says that a backslash came just before. -/
def splitFrom (current : List Char) (escaped : Bool) : List Char → List (List Char)
  | [] => [current.reverse]
  | c :: rest =>
    if escaped then splitFrom (c :: current) false rest
    else if c = '\\' then splitFrom current true rest
    else if c = ',' then current.reverse :: splitFrom [] false rest
    else splitFrom (c :: current) false rest

/-- The parts of a forwarded name, without escapes. -/
def split (dn : List Char) : List (List Char) :=
  splitFrom [] false dn

/-- Type and value of a part: what stands before and behind its first equals sign. -/
def attributeOf (part : List Char) : Option (List Char × List Char) :=
  match part.dropWhile (· ≠ '=') with
  | _ :: value => some (part.takeWhile (· ≠ '='), value)
  | [] => none

/-- The value of a part that gives a Common Name. -/
def commonNameOf (part : List Char) : Option (List Char) :=
  match attributeOf part with
  | some (key, value) =>
    if (Text.trimChars key).map Char.toUpper = ['C', 'N'] then some (Text.trimChars value) else none
  | none => none

/-- The first Common Name of a forwarded name, if it is not empty. -/
def commonName? (dn : List Char) : Option (List Char) :=
  ((split dn).findSome? commonNameOf).filter (!·.isEmpty)

end CertAuthority.ForwardedName

/-! ## Callers

Who makes a request, as far as the transport has verified it: a Common Name and, if the caller
presented a certificate, that certificate's serial number.
-/

namespace CertAuthority

structure CallerIdentity where
  commonName : String
  serialNumber : Option SerialNumber
  deriving Repr, DecidableEq, Inhabited

namespace CallerIdentity

/-- A caller whose name is known, without a certificate. -/
def verified (commonName : String) : CallerIdentity :=
  ⟨commonName, none⟩

def withSerial (caller : CallerIdentity) (serial : SerialNumber) : CallerIdentity :=
  { caller with serialNumber := some serial }

/-- The caller that a proxy vouches for. -/
def ofForwardedDn (dn : String) : Except CaError CallerIdentity :=
  match ForwardedName.commonName? dn.toList with
  | some name => .ok (verified (String.ofList name))
  | none => .error (.untrustedClientCertificate ("forwarded subject has no CN: " ++ dn))

end CallerIdentity

end CertAuthority

/-! ## Callers that present a certificate

A client's certificate is read and checked against the authority's certificate; the caller's
name is its first Common Name, and the caller's serial number the certificate's.
-/

namespace CertAuthority.CallerIdentity

open X509

def untrusted {α : Type} (message : String) : Except CaError α :=
  .error (.untrustedClientCertificate message)

/-- The name and the serial number in a certificate. -/
def ofCertificate (der : Bytes) : Except CaError CallerIdentity :=
  match Certificate.read der with
  | none => untrusted "Failed to parse client certificate"
  | some (certificate, _) =>
    match certificate.subject.commonName? with
    | none => untrusted "client certificate has no CN"
    | some name => .ok ((verified name).withSerial (SerialNumber.ofBytes certificate.serial))

/-- The caller that presents the certificate in a text, in a given second. -/
def ofClientCertificate (pem : String) (authorityDer : Bytes) (now : Instant) :
    Except CaError CallerIdentity :=
  match Pem.contentsOf pem Authority.certificateTag with
  | .error e => untrusted e.message
  | .ok der =>
    match StrictCertificate.readAnchor authorityDer with
    | none => .error (.keyMaterial "Invalid CA trust anchor")
    | some anchor =>
      match StrictCertificate.readClient der with
      | none => untrusted "Invalid end-entity cert"
      | some client =>
        if client.isTrusted anchor now.seconds then ofCertificate der
        else untrusted "Certificate verification failed"

end CertAuthority.CallerIdentity
