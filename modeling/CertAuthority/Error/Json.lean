import CertAuthority.Error
import CertAuthority.Json.Codec

/-!
# Errors in JSON

An error is an object whose only key names its kind; a kind without details is the bare name.
-/

namespace CertAuthority

open Json (Codec Reader Fields)

/-- An object with one key. -/
def Json.tagged (kind : String) (content : Json) : Json :=
  .object [(kind, content)]

namespace IdentityError

def toJson : IdentityError → Json
  | .malformedSubject commonName reason =>
    .tagged "MalformedSubject"
      (.object [("common_name", Json.text? commonName), ("reason", .string reason)])
  | .missingAttribute name =>
    .tagged "MissingAttribute" (.object [("attribute", .string name)])

def read : Reader IdentityError := fun level t => do
  match ← Json.alternative level t with
  | ("MalformedSubject", some t, level) =>
    let f ← Fields.read ["common_name", "reason"] false level t
    return .malformedSubject (← f.optional "common_name" Reader.text) (← f.required "reason" Reader.text)
  | ("MissingAttribute", some t, level) =>
    let f ← Fields.read ["attribute"] false level t
    return .missingAttribute (← f.required "attribute" Reader.text)
  | _ => none

instance : Codec IdentityError := ⟨toJson, read⟩

end IdentityError

namespace RedeemError

def toJson : RedeemError → Json
  | .notFound => .string "NotFound"
  | .expired => .string "Expired"
  | .alreadyUsed => .string "AlreadyUsed"
  | .subjectMismatch expected presented =>
    .tagged "SubjectMismatch"
      (.object [("expected", .string expected), ("presented", .string presented)])
  | .sourceNotAllowed sourceIp =>
    .tagged "SourceNotAllowed" (.object [("source_ip", .string sourceIp)])

def read : Reader RedeemError := fun level t => do
  match ← Json.alternative level t with
  | ("NotFound", content, _) => if Json.Tree.isBare content then return .notFound else none
  | ("Expired", content, _) => if Json.Tree.isBare content then return .expired else none
  | ("AlreadyUsed", content, _) => if Json.Tree.isBare content then return .alreadyUsed else none
  | ("SubjectMismatch", some t, level) =>
    let f ← Fields.read ["expected", "presented"] false level t
    return .subjectMismatch (← f.required "expected" Reader.text) (← f.required "presented" Reader.text)
  | ("SourceNotAllowed", some t, level) =>
    let f ← Fields.read ["source_ip"] false level t
    return .sourceNotAllowed (← f.required "source_ip" Reader.text)
  | _ => none

instance : Codec RedeemError := ⟨toJson, read⟩

end RedeemError

namespace ErrorCategory

/-- The name of a category in JSON. -/
def name : ErrorCategory → String
  | .validation => "Validation"
  | .authorization => "Authorization"
  | .state => "State"
  | .notFound => "NotFound"
  | .signing => "Signing"
  | .storage => "Storage"
  | .config => "Config"
  | .internal => "Internal"

def all : List ErrorCategory :=
  [.validation, .authorization, .state, .notFound, .signing, .storage, .config, .internal]

instance : Codec ErrorCategory where
  write c := .string c.name
  read level t := do
    let (name, content, _) ← Json.alternative level t
    if Json.Tree.isBare content then all.find? fun c => c.name = name else none

end ErrorCategory

namespace CaError

/-- The name of the kind of an error in JSON. -/
def kind : CaError → String
  | .malformedCsr _ => "MalformedCsr"
  | .identity _ => "Identity"
  | .invalidArgument _ => "InvalidArgument"
  | .token _ => "Token"
  | .identityMismatch _ _ => "IdentityMismatch"
  | .certificateRevoked _ => "CertificateRevoked"
  | .untrustedClientCertificate _ => "UntrustedClientCertificate"
  | .invalidTransition _ _ => "InvalidTransition"
  | .requestNotFound _ => "RequestNotFound"
  | .tokenNotFound _ => "TokenNotFound"
  | .unknownSerial _ => "UnknownSerial"
  | .signing _ => "Signing"
  | .storage _ => "Storage"
  | .conflict _ => "Conflict"
  | .keyMaterial _ => "KeyMaterial"
  | .config _ => "Config"
  | .internal _ => "Internal"

/-- The details of an error as texts with their names. -/
def details : CaError → List (String × String)
  | .identity _ | .token _ => []
  | .identityMismatch caller requested => [("caller", caller), ("requested", requested)]
  | .certificateRevoked serial | .unknownSerial serial => [("serial_number", serial)]
  | .invalidTransition id status => [("request_id", id), ("status", status)]
  | .requestNotFound id => [("request_id", id)]
  | .tokenNotFound id => [("token_id", id)]
  | .conflict key => [("key", key)]
  | .malformedCsr m | .invalidArgument m | .untrustedClientCertificate m | .signing m | .storage m
  | .keyMaterial m | .config m | .internal m => [("message", m)]

def toJson (e : CaError) : Json :=
  .tagged e.kind <|
    match e with
    | .identity cause => cause.toJson
    | .token cause => cause.toJson
    | e => .object (e.details.map fun (name, value) => (name, .string value))

def readOne (make : String → CaError) (name : String) : Reader CaError := fun level t => do
  let f ← Fields.read [name] false level t
  return make (← f.required name Reader.text)

def readTwo (make : String → String → CaError) (first second : String) : Reader CaError :=
  fun level t => do
    let f ← Fields.read [first, second] false level t
    return make (← f.required first Reader.text) (← f.required second Reader.text)

/-- How the content of each kind is read. -/
def readContent (kind : String) : Option (Reader CaError) :=
  match kind with
  | "MalformedCsr" => some (readOne .malformedCsr "message")
  | "Identity" => some fun level t => (IdentityError.read level t).map .identity
  | "InvalidArgument" => some (readOne .invalidArgument "message")
  | "Token" => some fun level t => (RedeemError.read level t).map .token
  | "IdentityMismatch" => some (readTwo .identityMismatch "caller" "requested")
  | "CertificateRevoked" => some (readOne .certificateRevoked "serial_number")
  | "UntrustedClientCertificate" => some (readOne .untrustedClientCertificate "message")
  | "InvalidTransition" => some (readTwo .invalidTransition "request_id" "status")
  | "RequestNotFound" => some (readOne .requestNotFound "request_id")
  | "TokenNotFound" => some (readOne .tokenNotFound "token_id")
  | "UnknownSerial" => some (readOne .unknownSerial "serial_number")
  | "Signing" => some (readOne .signing "message")
  | "Storage" => some (readOne .storage "message")
  | "Conflict" => some (readOne .conflict "key")
  | "KeyMaterial" => some (readOne .keyMaterial "message")
  | "Config" => some (readOne .config "message")
  | "Internal" => some (readOne .internal "message")
  | _ => none

def read : Reader CaError := fun level t => do
  let (kind, content, level) ← Json.alternative level t
  (← readContent kind) level (← content)

instance : Codec CaError := ⟨toJson, read⟩

end CaError

end CertAuthority
