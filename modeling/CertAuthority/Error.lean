import CertAuthority.Text.Quoted

/-!
# Errors of the certificate authority

Each way in which an operation can be refused or can fail, with its wording, the category a
caller acts on, and whether the same call may succeed later.
-/

namespace CertAuthority

/-- What is wrong with the subject of a request. -/
inductive IdentityError where
  | malformedSubject (commonName : Option String) (reason : String)
  | missingAttribute (name : String)
  deriving Repr, DecidableEq

/-- Why a bootstrap token cannot be redeemed. -/
inductive RedeemError where
  | notFound
  | expired
  | alreadyUsed
  | subjectMismatch (expected presented : String)
  | sourceNotAllowed (sourceIp : String)
  deriving Repr, DecidableEq

inductive CaError where
  | malformedCsr (message : String)
  | identity (cause : IdentityError)
  | invalidArgument (message : String)
  | token (cause : RedeemError)
  | identityMismatch (caller requested : String)
  | certificateRevoked (serialNumber : String)
  | untrustedClientCertificate (message : String)
  | invalidTransition (requestId status : String)
  | requestNotFound (requestId : String)
  | tokenNotFound (tokenId : String)
  | unknownSerial (serialNumber : String)
  | signing (message : String)
  | storage (message : String)
  | conflict (key : String)
  | keyMaterial (message : String)
  | config (message : String)
  | internal (message : String)
  deriving Repr, DecidableEq

inductive ErrorCategory where
  | validation
  | authorization
  | state
  | notFound
  | signing
  | storage
  | config
  | internal
  deriving Repr, DecidableEq

def ErrorCategory.text : ErrorCategory → String
  | .validation => "validation"
  | .authorization => "authorization"
  | .state => "state"
  | .notFound => "not_found"
  | .signing => "signing"
  | .storage => "storage"
  | .config => "config"
  | .internal => "internal"

def IdentityError.message : IdentityError → String
  | .malformedSubject commonName reason =>
    "Malformed subject " ++ Text.quoteOption commonName ++ ": " ++ reason
  | .missingAttribute name => "Missing subject attribute: " ++ name

def RedeemError.message : RedeemError → String
  | .notFound => "Bootstrap token not found"
  | .expired => "Bootstrap token expired"
  | .alreadyUsed => "Bootstrap token already used"
  | .subjectMismatch expected presented =>
    "Common name mismatch: expected " ++ expected ++ ", presented " ++ presented
  | .sourceNotAllowed sourceIp =>
    "Source address " ++ sourceIp ++ " is not allowed for this token"

namespace CaError

def message : CaError → String
  | .malformedCsr m => "Invalid CSR: " ++ m
  | .identity cause => cause.message
  | .invalidArgument m => "Invalid argument: " ++ m
  | .token cause => cause.message
  | .identityMismatch caller requested =>
    "Identity mismatch: caller " ++ caller ++ " does not match CSR " ++ requested
  | .certificateRevoked serial => "Certificate " ++ serial ++ " has been revoked"
  | .untrustedClientCertificate m => "Client certificate rejected: " ++ m
  | .invalidTransition id status => "Request " ++ id ++ " is already " ++ status
  | .requestNotFound id => "Certificate request not found: " ++ id
  | .tokenNotFound id => "Bootstrap token not found: " ++ id
  | .unknownSerial serial => "Unknown certificate serial: " ++ serial
  | .signing m => "Signing failed: " ++ m
  | .storage m => "Storage error: " ++ m
  | .conflict key => "Concurrent modification of " ++ key
  | .keyMaterial m => "Key material error: " ++ m
  | .config m => "Config error: " ++ m
  | .internal m => "Internal error: " ++ m

def category : CaError → ErrorCategory
  | .malformedCsr _ | .identity _ | .invalidArgument _ => .validation
  | .token _ | .identityMismatch _ _ | .certificateRevoked _ | .untrustedClientCertificate _ =>
    .authorization
  | .invalidTransition _ _ => .state
  | .requestNotFound _ | .tokenNotFound _ | .unknownSerial _ => .notFound
  | .signing _ => .signing
  | .storage _ | .conflict _ | .keyMaterial _ => .storage
  | .config _ => .config
  | .internal _ => .internal

/-- Failures of the service itself; a caller may try again. -/
def isRetriable : CaError → Bool
  | .signing _ | .storage _ | .conflict _ => true
  | _ => false

end CaError

instance : ToString CaError := ⟨CaError.message⟩

end CertAuthority
