import CertAuthority.Config.Environment
import CertAuthority.Config.Json
import CertAuthority.Disk.Basic
import CertAuthority.Toml.Document

/-!
# Loading a configuration

The usual values are overridden by those of a file, and these by the environment, setting by
setting.  Then relative directories are taken from where the file is, and the rules are checked.
-/

namespace CertAuthority

/-- The fields with another value for a name, which is new or stays in its place. -/
def Json.setField (name : String) (v : Json) : List (String × Json) → List (String × Json)
  | [] => [(name, v)]
  | (n, u) :: rest => if n = name then (n, v) :: rest else (n, u) :: setField name v rest

mutual

/-- The value that holds when another one is laid over it; objects are laid over field by
field. -/
def Json.overlay (base : Json) : Json → Json
  | .object fields =>
    match base with
    | .object under => .object (Json.overlayFields under fields)
    | _ => .object fields
  | v => v

def Json.overlayFields (under : List (String × Json)) : List (String × Json) → List (String × Json)
  | [] => under
  | (name, v) :: rest =>
    let v := match Json.get? under name with
      | some base => Json.overlay base v
      | none => v
    Json.overlayFields (Json.setField name v under) rest

end

/-- Why there is no configuration. -/
inductive ConfigError where
  | missing (path : String)
  /-- The file cannot be read, or a setting is not known or of another type. -/
  | unreadable
  /-- A rule is broken. -/
  | invalid (fault : String)
  deriving Repr, DecidableEq

def ConfigError.message : ConfigError → String
  | .missing path => "Config file not found: " ++ path
  | .unreadable => "Failed to load config via Figment: invalid settings"
  | .invalid fault => fault

namespace Config

/-- The file that is read if no other is named. -/
def defaultFile : String := "mwca.toml"

/-- The settings of a file; a directory has none. -/
def fileSettings (d : Disk) (path : String) : Except ConfigError Json :=
  if d.isDirectory path then .ok (.object [])
  else
    match d.readText path with
    | .error _ => .error .unreadable
    | .ok text =>
      match Toml.parse text with
      | some settings => .ok settings
      | none => .error .unreadable

/-- The directory of the running program as a path. -/
def hereOf (d : Disk) : String :=
  "/" ++ "/".intercalate d.here

/-- Where relative directories start, given the file that was named. -/
def baseOf (d : Disk) : Option String → String
  | none => hereOf d
  | some path =>
    match Path.parent? path with
    | some "" | none => hereOf d
    | some parent => parent

/-- The settings of the file that was named, or of the usual one if it is there. -/
def namedSettings (d : Disk) : Option String → Except ConfigError Json
  | some path => if d.exists? path then fileSettings d path else .error (.missing path)
  | none => if d.exists? defaultFile then fileSettings d defaultFile else .ok (.object [])

/-- The settings of variables, the later over the earlier. -/
def environmentSettings (environment : List (String × String)) : Json :=
  environment.foldl (fun settings (name, text) =>
    match Environment.path? name with
    | some path => settings.overlay (Environment.nest path (Environment.value text))
    | none => settings) (.object [])

/-- The configuration that some settings make. -/
def ofSettings (settings : Json) (base : String) : Except ConfigError Config :=
  match Json.readValue Json.Codec.read settings with
  | none => .error .unreadable
  | some (c : Config) =>
    let c := c.resolve base
    match c.fault? with
    | some fault => .error (.invalid fault)
    | none => .ok c

/-- The configuration of a file under an environment. -/
def load (d : Disk) (environment : List (String × String)) (path : Option String) :
    Except ConfigError Config :=
  match namedSettings d path with
  | .error e => .error e
  | .ok file =>
    let usual : Json := Json.Codec.write ({} : Config)
    ofSettings ((usual.overlay file).overlay (environmentSettings environment)) (baseOf d path)

end Config

end CertAuthority
