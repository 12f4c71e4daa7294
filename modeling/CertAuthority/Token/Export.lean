import CertAuthority.Procedure
import CertAuthority.Text.Character
import CertAuthority.Token.Json

/-!
# Looking up tokens

The tokens that there are, and what is handed to an agent: the bare identifier of a token, or a JSON
object that also names the server and the Common Name the agent must use.
-/

namespace CertAuthority

open Json (Codec Reader)

inductive ExportFormat where
  | text
  | json
  deriving Repr, DecidableEq, Inhabited

namespace ExportFormat

def name : ExportFormat → String
  | .text => "text"
  | .json => "json"

/-- Reads a typed format name in any letter case. -/
def parse (s : String) : Except CaError ExportFormat :=
  match Text.lowerAscii s with
  | "text" => .ok .text
  | "json" => .ok .json
  | other => .error (.invalidArgument ("unknown token export format: " ++ other))

def ofName : String → Option ExportFormat
  | "text" => some .text
  | "json" => some .json
  | _ => none

instance : Codec ExportFormat where
  write f := .string f.name
  read level t := do
    let (name, content, _) ← Json.alternative level t
    if Json.Tree.isBare content then ofName name else none

end ExportFormat

/-- A text without the slashes at its end. -/
def Text.withoutTrailingSlashes (s : String) : String :=
  String.ofList (s.toList.reverse.dropWhile (· = '/')).reverse

namespace BootstrapToken

def exportFile (token : BootstrapToken) (format : ExportFormat) (serverUrl : String) : String :=
  match format with
  | .text => token.tokenId.text
  | .json =>
    Json.toPrettyText <| .object [
      ("token", .string token.tokenId.text),
      ("ca_server_url", .string (Text.withoutTrailingSlashes serverUrl)),
      ("expected_cn", Json.text? token.expectedCommonName)]

end BootstrapToken

namespace Tokens

def get (id : TokenId) : Procedure BootstrapToken := do
  match ← Procedure.query .tokens (.get id.text) with
  | some entry => return entry.value
  | none => .error (.tokenNotFound id.redacted)

/-- Tokens with the newest first; those of one time stay in the order of the table. -/
def newestFirst (entries : Entries BootstrapToken) : List BootstrapToken :=
  (entries.map (·.2.value)).mergeSort fun a b => b.createdAt ≤ a.createdAt

def list : Procedure (List BootstrapToken) := do
  return newestFirst (← Procedure.query .tokens .list)

/-- The file that is handed to the agent. -/
def exportFile (id : TokenId) (format : ExportFormat) (serverUrl : String) : Procedure String := do
  let token ← get id
  return token.exportFile format serverUrl

end Tokens

end CertAuthority
