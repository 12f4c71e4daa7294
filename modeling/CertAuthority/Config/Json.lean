import CertAuthority.Config.Basic

/-!
# The written form of a configuration

Every section and every setting may be left out; one that is not known is refused.
-/

namespace CertAuthority

open Json (Codec Reader Fields)

/-- Numbers of 32 bits. -/
def Json.Reader.nat32 : Reader Nat :=
  Reader.natBelow (Nat.pow 2 32)

instance : Codec TelemetrySettings where
  write s := .object [
    ("log_level", .string s.logLevel),
    ("log_format", .string s.logFormat),
    ("log_no_ansi", .bool s.logNoAnsi)]
  read level t := do
    let f ← Fields.read ["log_level", "log_format", "log_no_ansi"] true level t
    let d : TelemetrySettings := {}
    return {
      logLevel := ← f.defaulted "log_level" Reader.text d.logLevel
      logFormat := ← f.defaulted "log_format" Reader.text d.logFormat
      logNoAnsi := ← f.defaulted "log_no_ansi" Reader.bool d.logNoAnsi }

instance : Codec RootSettings where
  write s := .object [
    ("dir", Json.text? s.dir),
    ("key_bits", Json.nat s.keyBits),
    ("validity_days", Json.nat s.validityDays),
    ("country", .string s.country),
    ("organization", .string s.organization),
    ("organizational_unit", .string s.organizationalUnit),
    ("common_name", .string s.commonName),
    ("path_len", Json.nat s.pathLen)]
  read level t := do
    let f ← Fields.read ["dir", "key_bits", "validity_days", "country", "organization",
      "organizational_unit", "common_name", "path_len"] true level t
    let d : RootSettings := {}
    return {
      dir := ← f.defaulted "dir" (Reader.option Reader.text) d.dir
      keyBits := ← f.defaulted "key_bits" Reader.nat32 d.keyBits
      validityDays := ← f.defaulted "validity_days" Reader.nat32 d.validityDays
      country := ← f.defaulted "country" Reader.text d.country
      organization := ← f.defaulted "organization" Reader.text d.organization
      organizationalUnit := ← f.defaulted "organizational_unit" Reader.text d.organizationalUnit
      commonName := ← f.defaulted "common_name" Reader.text d.commonName
      pathLen := ← f.defaulted "path_len" (Reader.natBelow 256) d.pathLen }

instance : Codec IssuancePolicy where
  write s := .object [
    ("default_validity_days", Json.nat s.defaultValidityDays),
    ("max_validity_days", Json.nat s.maxValidityDays),
    ("renewal_validity_days", Json.nat s.renewalValidityDays),
    ("require_usertype", .bool s.requireUsertype),
    ("ca_server_url", .string s.caServerUrl)]
  read level t := do
    let f ← Fields.read ["default_validity_days", "max_validity_days", "renewal_validity_days",
      "require_usertype", "ca_server_url"] true level t
    let d : IssuancePolicy := {}
    return {
      defaultValidityDays := ← f.defaulted "default_validity_days" Reader.nat32 d.defaultValidityDays
      maxValidityDays := ← f.defaulted "max_validity_days" Reader.nat32 d.maxValidityDays
      renewalValidityDays := ← f.defaulted "renewal_validity_days" Reader.nat32 d.renewalValidityDays
      requireUsertype := ← f.defaulted "require_usertype" Reader.bool d.requireUsertype
      caServerUrl := ← f.defaulted "ca_server_url" Reader.text d.caServerUrl }

instance : Codec TokenPolicy where
  write s := .object [
    ("default_validity_hours", Json.nat s.defaultValidityHours),
    ("sweep_interval_sec", Json.nat s.sweepIntervalSec),
    ("prune_grace_hours", Json.nat s.pruneGraceHours)]
  read level t := do
    let f ← Fields.read ["default_validity_hours", "sweep_interval_sec", "prune_grace_hours"] true
      level t
    let d : TokenPolicy := {}
    return {
      defaultValidityHours := ← f.defaulted "default_validity_hours" Reader.nat32 d.defaultValidityHours
      sweepIntervalSec := ← f.defaulted "sweep_interval_sec" Reader.nat64 d.sweepIntervalSec
      pruneGraceHours := ← f.defaulted "prune_grace_hours" Reader.nat32 d.pruneGraceHours }

instance : Codec StorageSettings where
  write s := .object [("backend", .string s.backend)]
  read level t := do
    let f ← Fields.read ["backend"] true level t
    let d : StorageSettings := {}
    return { backend := ← f.defaulted "backend" Reader.text d.backend }

instance : Codec Config where
  write c := .object [
    ("data_dir", .string c.dataDir),
    ("telemetry", Codec.write c.telemetry),
    ("ca", Codec.write c.ca),
    ("issuance", Codec.write c.issuance),
    ("tokens", Codec.write c.tokens),
    ("storage", Codec.write c.storage)]
  read level t := do
    let f ← Fields.read ["data_dir", "telemetry", "ca", "issuance", "tokens", "storage"] true level t
    let d : Config := {}
    return {
      dataDir := ← f.defaulted "data_dir" Reader.text d.dataDir
      telemetry := ← f.defaulted "telemetry" Codec.read d.telemetry
      ca := ← f.defaulted "ca" Codec.read d.ca
      issuance := ← f.defaulted "issuance" Codec.read d.issuance
      tokens := ← f.defaulted "tokens" Codec.read d.tokens
      storage := ← f.defaulted "storage" Codec.read d.storage }

end CertAuthority
