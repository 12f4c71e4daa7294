import CertAuthority.Proofs.X509.Name
import CertAuthority.X509.Certificate
import CertAuthority.X509.SigningKey

/-!
# The parts of a certificate are read back

Object identifiers, algorithms, public keys, signatures and extensions are read back as they were
written, and so is what follows them.
-/

namespace CertAuthority

open Asn1 (Element)

namespace Oid

/-- An identifier that can be read. -/
def Proper (oid : Oid) : Prop :=
  ofContent? oid.content = some oid

instance (oid : Oid) : Decidable oid.Proper :=
  inferInstanceAs (Decidable (_ = _))

theorem proper_of_read {input rest : Bytes} {oid : Oid} (hread : read input = some (oid, rest)) :
    oid.Proper := by
  unfold read at hread
  split at hread
  · next content after hcontent =>
      obtain ⟨found, hfound, heq⟩ := Option.map_eq_some_iff.mp hread
      cases heq
      have hsame : oid.content = content := by
        unfold ofContent? at hfound
        split at hfound
        · split at hfound <;> cases hfound
          rfl
        · cases hfound
      rw [Proper, hsame, hfound]
  · cases hread

theorem read_encode {oid : Oid} (hproper : oid.Proper) (hlength : oid.encode.length < 2 ^ 64)
    (rest : Bytes) : read (oid.encode ++ rest) = some (oid, rest) := by
  have hcontent := (Asn1.length_lt_length_encode Asn1.objectIdentifier oid.content).trans hlength
  rw [read, encode, Element.expect_encode (by decide) hcontent]
  simp only [show ofContent? oid.content = some oid from hproper, Option.map_some]

end Oid

namespace Asn1

/-- A string of whole bytes is read back. -/
theorem readBits_encodeBits {bytes : Bytes} (hlength : (encodeBits bytes).length < 2 ^ 64)
    (rest : Bytes) : readBits (encodeBits bytes ++ rest) = some (bytes, rest) := by
  have hcontent := (length_lt_length_encode bitString (0 :: bytes)).trans hlength
  rw [readBits, encodeBits, Element.expect_encode (by decide) hcontent]
  cases bytes with
  | nil => rfl
  | cons b bytes => simp [Nat.mod_one]

end Asn1

namespace X509

namespace Name

/-- What is read of a name that was written. -/
def reread (name : Name) : Name :=
  ofContent (name.relativeNames.map fun attributes =>
    Asn1.encode Asn1.set (attributes.flatMap NameAttribute.encode)).flatten

theorem read_encode {name : Name} (hlength : name.encode.length < 2 ^ 64) (rest : Bytes) :
    read (name.encode ++ rest) = some (name.reread, rest) := by
  have hcontent := (Asn1.length_lt_length_encode Asn1.sequence _).trans hlength
  rw [read, encode, Asn1.encodeSequence, Element.expect_encode (by decide) hcontent]
  rfl

/-- A proper name is read as it was. -/
theorem Proper.reread_eq {name : Name} (hproper : name.Proper)
    (hlength : name.encode.length < 2 ^ 64) : name.reread = name :=
  (of_read_encode hproper (read_encode hlength [])).1

end Name

namespace Algorithm

/-- An algorithm without parameters. -/
theorem read_encode {oid : Oid} (hproper : oid.Proper)
    (hlength : (Asn1.encodeSequence [oid.encode]).length < 2 ^ 64) (rest : Bytes) :
    read (Asn1.encodeSequence [oid.encode] ++ rest) = some (⟨oid, none⟩, rest) := by
  have hcontent := (Asn1.length_lt_length_encode Asn1.sequence _).trans hlength
  have hoid := (Asn1.length_lt_length_encodeSequence List.mem_cons_self).trans hlength
  rw [read, Asn1.encodeSequence, Element.expect_encode (by decide) hcontent]
  simp only [List.flatten_cons, List.flatten_nil, Option.bind_eq_bind, Option.bind_some,
    Oid.read_encode hproper hoid]
  rfl

/-- An algorithm with one parameter. -/
theorem read_encode_parameter {oid : Oid} (hproper : oid.Proper) {identifier : UInt8}
    {content : Bytes} (hidentifier : identifier.toNat % 32 ≠ 31)
    (hlength : (Asn1.encodeSequence [oid.encode, Asn1.encode identifier content]).length < 2 ^ 64)
    (rest : Bytes) :
    read (Asn1.encodeSequence [oid.encode, Asn1.encode identifier content] ++ rest) =
      some (⟨oid, some ⟨identifier, content, Asn1.encode identifier content⟩⟩, rest) := by
  have hcontent := (Asn1.length_lt_length_encode Asn1.sequence _).trans hlength
  have hoid := (Asn1.length_lt_length_encodeSequence List.mem_cons_self).trans hlength
  have hparameter := (Asn1.length_lt_length_encode identifier content).trans
    ((Asn1.length_lt_length_encodeSequence (by simp)).trans hlength)
  rw [read, Asn1.encodeSequence, Element.expect_encode (by decide) hcontent]
  simp only [List.flatten_cons, List.flatten_nil, Option.bind_eq_bind, Option.bind_some,
    Oid.read_encode hproper hoid, Element.read_encode hidentifier hparameter, Option.map_some,
    Option.pure_def]

end Algorithm

namespace KeyAlgorithm

/-- The algorithm that is read where the key's was written. -/
def algorithm : KeyAlgorithm → Algorithm
  | .rsa => ⟨Oid.rsaEncryption, some ⟨Asn1.null, [], Asn1.encodeNull⟩⟩
  | .ecdsa curve =>
    ⟨Oid.ecPublicKey,
      some ⟨Asn1.objectIdentifier, (curveOid curve).content, (curveOid curve).encode⟩⟩
  | .ed25519 => ⟨Oid.ed25519, none⟩

theorem read_encode (algorithm : KeyAlgorithm) (rest : Bytes) :
    Algorithm.read (algorithm.encode ++ rest) = some (algorithm.algorithm, rest) := by
  cases algorithm with
  | rsa => exact Algorithm.read_encode_parameter (by decide) (by decide) (by decide) rest
  | ecdsa curve =>
      cases curve <;>
        exact Algorithm.read_encode_parameter (by decide) (by decide) (by decide) rest
  | ed25519 => exact Algorithm.read_encode (by decide) (by decide) rest

end KeyAlgorithm

namespace SigningKey

/-- The algorithm that is read where that of the key's signatures was written. -/
def signatureMark : SigningKey → Algorithm
  | .rsa _ => ⟨Oid.sha256WithRsa, some ⟨Asn1.null, [], Asn1.encodeNull⟩⟩
  | .ecdsa .p256 _ _ => ⟨Oid.ecdsaWithSha256, none⟩
  | .ecdsa .p384 _ _ => ⟨Oid.ecdsaWithSha384, none⟩
  | .ecdsa .p521 _ _ => ⟨Oid.ecdsaWithSha512, none⟩
  | .ed25519 _ => ⟨Oid.ed25519, none⟩

theorem read_signatureAlgorithm (key : SigningKey) (rest : Bytes) :
    Algorithm.read (key.signatureAlgorithm ++ rest) = some (key.signatureMark, rest) := by
  cases key with
  | rsa key => exact Algorithm.read_encode_parameter (by decide) (by decide) (by decide) rest
  | ecdsa curve secret point =>
      cases curve <;> exact Algorithm.read_encode (by decide) (by decide) rest
  | ed25519 seed => exact Algorithm.read_encode (by decide) (by decide) rest

end SigningKey

/-- A public key is read back. -/
theorem PublicKeyInfo.read_encodeKey {algorithm : KeyAlgorithm} {key : Bytes}
    (hlength : (algorithm.encodeKey key).length < 2 ^ 64) (rest : Bytes) :
    read (algorithm.encodeKey key ++ rest) =
      some (⟨algorithm.algorithm, key, algorithm.encodeKey key⟩, rest) := by
  have hcontent := (Asn1.length_lt_length_encode Asn1.sequence _).trans hlength
  have hbits : (Asn1.encodeBits key).length < 2 ^ 64 :=
    (Asn1.length_lt_length_encodeSequence (by simp)).trans hlength
  rw [read, KeyAlgorithm.encodeKey, Asn1.encodeSequence, Element.read_encode (by decide) hcontent]
  simp only [List.flatten_cons, List.flatten_nil, Option.bind_eq_bind, Option.bind_some,
    ne_eq, not_true_eq_false, if_false, KeyAlgorithm.read_encode, Asn1.readBits_encodeBits hbits,
    Option.pure_def]

namespace Extension

theorem readFlag_written (critical : Bool) {content : Bytes} (hlength : content.length < 2 ^ 64)
    (rest : Bytes) :
    readFlag ((if critical then [Asn1.encodeTrue] else []).flatten ++
        (Asn1.encode Asn1.octetString content ++ rest)) =
      (critical, Asn1.encode Asn1.octetString content ++ rest) := by
  cases critical with
  | false =>
      have hother : Element.expect Asn1.boolean (Asn1.encode Asn1.octetString content ++ rest) =
          none := by
        rw [Element.expect, Element.read_encode (by decide) hlength]
        rfl
      simp only [Bool.false_eq_true, if_false, List.flatten_nil, List.nil_append, readFlag, hother]
  | true =>
      simp only [if_true, List.flatten_cons, List.flatten_nil, List.append_nil, Asn1.encodeTrue,
        readFlag, Element.expect_encode (show Asn1.boolean.toNat % 32 ≠ 31 by decide)
          (show [(0xFF : UInt8)].length < 2 ^ 64 by decide)]
      rfl

theorem length_of_read {input rest : Bytes} {e : Extension}
    (hread : read input = some (e, rest)) : e.value.length < 2 ^ 64 := by
  simp only [read, Option.bind_eq_bind, Option.bind_eq_some_iff, Option.pure_def, Option.some.injEq,
    Prod.mk.injEq, Prod.exists] at hread
  obtain ⟨_, _, -, _, _, -, value, _, hvalue, rfl, -⟩ := hread
  exact Element.length_of_expect hvalue

/-- An extension is read back. -/
theorem read_encode {e : Extension} (hproper : e.oid.Proper) (hlength : e.encode.length < 2 ^ 64)
    (rest : Bytes) : read (e.encode ++ rest) = some (e, rest) := by
  have hcontent := (Asn1.length_lt_length_encode Asn1.sequence _).trans hlength
  have hoid : e.oid.encode.length < 2 ^ 64 :=
    (Asn1.length_lt_length_encodeSequence (by simp)).trans hlength
  have hvalue : e.value.length < 2 ^ 64 :=
    (Asn1.length_lt_length_encode Asn1.octetString e.value).trans
      ((Asn1.length_lt_length_encodeSequence (by simp)).trans hlength)
  have hflag := readFlag_written e.critical hvalue []
  have hlast : Element.expect Asn1.octetString (Asn1.encode Asn1.octetString e.value ++ []) =
      some (e.value, []) :=
    Element.expect_encode (by decide) hvalue []
  rw [List.append_nil] at hflag hlast
  rw [read, encode, Asn1.encodeSequence, Element.expect_encode (by decide) hcontent]
  simp only [List.flatten_append, List.flatten_cons, List.flatten_nil, List.append_nil,
    List.append_assoc, Option.bind_eq_bind, Option.bind_some, Oid.read_encode hproper hoid, hflag,
    hlast, Option.pure_def]

/-- A list of extensions is read back. -/
theorem readSequence_encode {extensions : List Extension}
    (hproper : ∀ e ∈ extensions, e.oid.Proper)
    (hlength : (Asn1.encodeSequence (extensions.map encode)).length < 2 ^ 64) (rest : Bytes) :
    readSequence (Asn1.encodeSequence (extensions.map encode) ++ rest) =
      some (extensions, rest) := by
  have hcontent := (Asn1.length_lt_length_encode Asn1.sequence _).trans hlength
  have hitem : ∀ e ∈ extensions, ∀ rest, read (e.encode ++ rest) = some (e, rest) := by
    intro e he
    exact read_encode (hproper e he)
      ((Asn1.length_lt_length_encodeSequence (List.mem_map_of_mem he)).trans hlength)
  have hall : Element.all read (extensions.map encode).flatten = some extensions :=
    Element.all_written rfl (fun _ _ => List.cons_ne_nil _ _) hitem
  rw [readSequence, Asn1.encodeSequence, Element.expect_encode (by decide) hcontent]
  simp only [Option.bind_eq_bind, Option.bind_some, hall, Option.pure_def]

end Extension

end X509

end CertAuthority
