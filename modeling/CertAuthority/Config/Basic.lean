import CertAuthority.Disk.Path
import CertAuthority.Error
import CertAuthority.Json.Codec
import CertAuthority.Log
import CertAuthority.Text.Character

/-!
# Configuration

The settings of the authority, with the values that hold where none is given, and the rules that
they must keep.  Relative directories are taken from where the configuration came from.
-/

namespace CertAuthority

open Json (Codec Reader Fields)

structure TelemetrySettings where
  logLevel : String := "info"
  logFormat : String := "text"
  logNoAnsi : Bool := false
  deriving Repr, DecidableEq, Inhabited

/-- The authority's own key and certificate. -/
structure RootSettings where
  /-- The directory of key and certificate, if it is not the usual one. -/
  dir : Option String := none
  keyBits : Nat := 4096
  validityDays : Nat := 3650
  country : String := "KR"
  organization : String := "Leebalso"
  organizationalUnit : String := "CA"
  commonName : String := "MwAgent Root CA"
  pathLen : Nat := 0
  deriving Repr, DecidableEq, Inhabited

/-- How long certificates are valid and what a request must hold. -/
structure IssuancePolicy where
  defaultValidityDays : Nat := 90
  maxValidityDays : Nat := 825
  renewalValidityDays : Nat := 90
  requireUsertype : Bool := false
  caServerUrl : String := "https://localhost:5000"
  deriving Repr, DecidableEq, Inhabited

/-- How long tokens are valid and when they are removed. -/
structure TokenPolicy where
  defaultValidityHours : Nat := 24
  sweepIntervalSec : Nat := 3600
  pruneGraceHours : Nat := 168
  deriving Repr, DecidableEq, Inhabited

structure StorageSettings where
  backend : String := "file"
  deriving Repr, DecidableEq, Inhabited

structure Config where
  dataDir : String := "data"
  telemetry : TelemetrySettings := {}
  ca : RootSettings := {}
  issuance : IssuancePolicy := {}
  tokens : TokenPolicy := {}
  storage : StorageSettings := {}
  deriving Repr, DecidableEq, Inhabited

namespace Config

/-- The fewest bits of the authority's key. -/
def minKeyBits : Nat := 4096

/-- The shortest time between two sweeps in seconds. -/
def minSweepInterval : Nat := 10

def dayRange (name : String) (max : Nat) : String :=
  "issuance." ++ name ++ " must be between 1 and " ++ toString max

/-- The first rule that a configuration breaks. -/
def fault? (c : Config) : Option String :=
  let max := c.issuance.maxValidityDays
  if c.ca.keyBits < minKeyBits then
    some ("ca.key_bits must be at least " ++ toString minKeyBits ++ ", got " ++
      toString c.ca.keyBits)
  else if c.ca.validityDays = 0 then some "ca.validity_days must be positive"
  else if Text.isAllBlank c.ca.commonName then some "ca.common_name must not be empty"
  else if max = 0 then some "issuance.max_validity_days must be positive"
  else if c.issuance.defaultValidityDays = 0 ∨ max < c.issuance.defaultValidityDays then
    some (dayRange "default_validity_days" max)
  else if c.issuance.renewalValidityDays = 0 ∨ max < c.issuance.renewalValidityDays then
    some (dayRange "renewal_validity_days" max)
  else if c.tokens.defaultValidityHours = 0 then
    some "tokens.default_validity_hours must be positive"
  else if c.tokens.sweepIntervalSec < minSweepInterval then
    some ("tokens.sweep_interval_sec must be at least " ++ toString minSweepInterval)
  else if c.storage.backend ≠ "file" ∧ c.storage.backend ≠ "memory" then
    some ("storage.backend must be 'file' or 'memory', got '" ++ c.storage.backend ++ "'")
  else if Text.lowerAscii c.telemetry.logFormat ≠ "text" ∧
      Text.lowerAscii c.telemetry.logFormat ≠ "json" then
    some ("telemetry.log_format must be 'text' or 'json', got '" ++ c.telemetry.logFormat ++ "'")
  else none

/-- Whether a configuration keeps every rule. -/
def isValid (c : Config) : Bool :=
  c.fault?.isNone

/-- The configuration with relative directories taken from `base`. -/
def resolve (c : Config) (base : String) : Config :=
  { c with
    dataDir := Path.join base c.dataDir
    ca := { c.ca with dir := c.ca.dir.map (Path.join base) } }

/-- The directory of the authority's key and certificate. -/
def caDir (c : Config) : String :=
  c.ca.dir.getD (Path.join c.dataDir "ca")

/-- The directory of the tables. -/
def storeDir (c : Config) : String :=
  Path.join c.dataDir "store"

end Config

end CertAuthority
