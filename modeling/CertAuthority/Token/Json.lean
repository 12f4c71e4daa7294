import CertAuthority.Token.Basic

/-!
# Bootstrap tokens in JSON
-/

namespace CertAuthority.BootstrapToken

open Json (Codec Reader Fields writeOption)

def toJson (token : BootstrapToken) : Json :=
  .object [
    ("token_id", Codec.write token.tokenId),
    ("expected_common_name", writeOption token.expectedCommonName),
    ("allowed_source_ips", writeOption token.allowedSourceIps),
    ("expires_at", Codec.write token.expiresAt),
    ("created_at", Codec.write token.createdAt),
    ("created_by", Codec.write token.createdBy),
    ("used_at", writeOption token.usedAt),
    ("used_by_common_name", writeOption token.usedByCommonName),
    ("used_from_ip", writeOption token.usedFromIp),
    ("comment", Codec.write token.comment)]

def fieldNames : List String :=
  ["token_id", "expected_common_name", "allowed_source_ips", "expires_at", "created_at",
    "created_by", "used_at", "used_by_common_name", "used_from_ip", "comment"]

def read : Reader BootstrapToken := fun level t => do
  let f ← Fields.read fieldNames false level t
  return {
    tokenId := ← f.required "token_id" Codec.read
    expectedCommonName := ← f.optional "expected_common_name" Codec.read
    allowedSourceIps := ← f.optional "allowed_source_ips" Codec.read
    expiresAt := ← f.required "expires_at" Codec.read
    createdAt := ← f.required "created_at" Codec.read
    createdBy := ← f.required "created_by" Codec.read
    usedAt := ← f.optional "used_at" Codec.read
    usedByCommonName := ← f.optional "used_by_common_name" Codec.read
    usedFromIp := ← f.optional "used_from_ip" Codec.read
    comment := ← f.required "comment" Codec.read }

instance : Codec BootstrapToken := ⟨toJson, read⟩

end CertAuthority.BootstrapToken
