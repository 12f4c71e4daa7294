import CertAuthority.Text.Character

/-!
# Log settings

What a configured level and format mean.  A level that is no known name means `info`, a format
other than `json` means text; letter case does not matter.
-/

namespace CertAuthority

inductive LogLevel where
  | trace
  | debug
  | info
  | warn
  | error
  deriving Repr, DecidableEq, Inhabited

inductive LogFormat where
  | text
  | json
  deriving Repr, DecidableEq, Inhabited

def LogLevel.label : LogLevel → String
  | .trace => "trace"
  | .debug => "debug"
  | .info => "info"
  | .warn => "warn"
  | .error => "error"

def LogFormat.label : LogFormat → String
  | .text => "text"
  | .json => "json"

/-- The letters of the level names have no lower-case forms outside ASCII. -/
def LogLevel.ofSetting (s : String) : LogLevel :=
  match Text.lowerAscii s with
  | "trace" => .trace
  | "debug" => .debug
  | "warn" => .warn
  | "error" => .error
  | _ => .info

def LogFormat.ofSetting (s : String) : LogFormat :=
  match Text.lowerAscii s with
  | "json" => .json
  | _ => .text

end CertAuthority
