import CertAuthority.Error

/-!
# Common Names of agents

An agent on host `h` that runs as user `u` is named by `h`, an underscore, `u`, and the ending
`_J`.  Neither part is empty and a user name has no underscore, so a name can be read in one
way only: the ending goes, and the last underscore before it parts host from user.
-/

namespace CertAuthority.CommonName

/-- The ending of every agent's name. -/
def ending : String := "_J"

/-- The name of a host's user. -/
def renderChars (hostname username : List Char) : List Char :=
  hostname ++ '_' :: username ++ ['_', 'J']

def render (hostname username : String) : String :=
  String.ofList (renderChars hostname.toList username.toList)

/-- Why a text is not an agent's name. -/
inductive Fault where
  | ending
  | separator
  | emptyPart
  deriving Repr, DecidableEq

def Fault.reason : Fault → String
  | .ending => "CN must end with _J"
  | .separator => "CN must be in format: \x7bhostname\x7d_\x7busername\x7d_J"
  | .emptyPart => "hostname and username must not be empty"

def parseChars (s : List Char) : Except Fault (List Char × List Char) :=
  match s.reverse with
  | 'J' :: '_' :: body =>
    let username := body.takeWhile (· ≠ '_')
    match body.dropWhile (· ≠ '_') with
    | _ :: hostname =>
      if hostname.isEmpty ∨ username.isEmpty then .error .emptyPart
      else .ok (hostname.reverse, username.reverse)
    | [] => .error .separator
  | _ => .error .ending

/-- The host and the user of an agent's name. -/
def parse (s : String) : Except IdentityError (String × String) :=
  match parseChars s.toList with
  | .ok (hostname, username) => .ok (String.ofList hostname, String.ofList username)
  | .error fault => .error (.malformedSubject (some s) fault.reason)

end CertAuthority.CommonName
