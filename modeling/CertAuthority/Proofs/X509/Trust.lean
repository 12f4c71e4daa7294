import CertAuthority.Proofs.X509.Parts
import CertAuthority.Proofs.X509.Validity
import CertAuthority.X509.Trust

/-!
# Certificates that are written are read strictly

A certificate of version three that was written as a whole of less than 65536 bytes is read back
strictly, as every length in it is in its shortest form; a longer one is not read.  What it is valid
for are the seconds between its dates, unless they lie before 1970.
-/

namespace CertAuthority

open Asn1 (Element)

namespace X509.StrictCertificate

variable {identifier : UInt8} {content : Bytes}

theorem expect_encode (hidentifier : identifier.toNat % 32 ≠ 31) (hlength : content.length < 65536)
    (rest : Bytes) : expect identifier (Asn1.encode identifier content ++ rest) =
      some (content, rest) := by
  rw [expect, Element.readStrict_encode hidentifier hlength]
  exact if_pos rfl

theorem expect_of_le {wanted : UInt8} (hlength : 65536 ≤ content.length) (rest : Bytes) :
    expect wanted (Asn1.encode identifier content ++ rest) = none := by
  rw [expect, Element.readStrict_of_le hlength]

theorem nested_encode {α : Type} {inner : Bytes → Option (α × Bytes)} {a : α}
    (hidentifier : identifier.toNat % 32 ≠ 31) (hlength : content.length < 65536)
    (hinner : inner content = some (a, [])) (rest : Bytes) :
    nested identifier inner (Asn1.encode identifier content ++ rest) = some (a, rest) := by
  simp only [nested, expect_encode hidentifier hlength, hinner]

theorem readFlag_written (critical : Bool) (content : Bytes) :
    readFlag ((if critical then [Asn1.encodeTrue] else []).flatten ++
        Asn1.encode Asn1.octetString content) =
      some (critical, Asn1.encode Asn1.octetString content) := by
  cases critical with
  | false =>
      rw [readFlag, if_neg (by simp [Asn1.encode, Asn1.octetString, Asn1.boolean])]
      rfl
  | true =>
      have hflag := expect_encode (show Asn1.boolean.toNat % 32 ≠ 31 by decide)
        (show [(0xFF : UInt8)].length < 65536 by decide) (Asn1.encode Asn1.octetString content)
      have hbytes : (if true then [Asn1.encodeTrue] else []).flatten ++
          Asn1.encode Asn1.octetString content =
            Asn1.encode Asn1.boolean [0xFF] ++ Asn1.encode Asn1.octetString content := rfl
      have hhead : (Asn1.encode Asn1.boolean [0xFF] ++
          Asn1.encode Asn1.octetString content).head? = some Asn1.boolean := rfl
      rw [readFlag, hbytes, if_pos hhead, hflag]
      rfl

/-- An extension is read back strictly. -/
theorem readExtension_encode {e : Extension} (hlength : e.encode.length < 65536) (rest : Bytes) :
    readExtension (e.encode ++ rest) = some (e, rest) := by
  have hcontent := (Asn1.length_lt_length_encode Asn1.sequence _).trans hlength
  have hoid : e.oid.content.length < 65536 :=
    (Asn1.length_lt_length_encode Asn1.objectIdentifier e.oid.content).trans
      ((Asn1.length_lt_length_encodeSequence (by simp [Oid.encode])).trans hlength)
  have hvalue : e.value.length < 65536 :=
    (Asn1.length_lt_length_encode Asn1.octetString e.value).trans
      ((Asn1.length_lt_length_encodeSequence (by simp)).trans hlength)
  have hlast : expect Asn1.octetString (Asn1.encode Asn1.octetString e.value ++ []) =
      some (e.value, []) :=
    expect_encode (by decide) hvalue []
  rw [List.append_nil] at hlast
  apply nested_encode (by decide) hcontent
  simp only [List.flatten_append, List.flatten_cons, List.flatten_nil, List.append_nil,
    List.append_assoc, Option.bind_eq_bind, Option.bind_some, Oid.encode,
    expect_encode (show Asn1.objectIdentifier.toNat % 32 ≠ 31 by decide) hoid,
    readFlag_written e.critical e.value, hlast, Option.pure_def]

theorem readExtensions_encode {extensions : List Extension} (hsome : extensions ≠ [])
    (hlength : (Asn1.encode (Asn1.context 3)
      (Asn1.encodeSequence (extensions.map Extension.encode))).length < 65536) :
    readExtensions (Asn1.encode (Asn1.context 3)
      (Asn1.encodeSequence (extensions.map Extension.encode))) = some (extensions, []) := by
  have houter := (Asn1.length_lt_length_encode (Asn1.context 3) _).trans hlength
  have hinner := (Asn1.length_lt_length_encode Asn1.sequence _).trans houter
  have hitem : ∀ e ∈ extensions, ∀ rest, readExtension (e.encode ++ rest) = some (e, rest) := by
    intro e he
    exact readExtension_encode
      ((Asn1.length_lt_length_encodeSequence (List.mem_map_of_mem he)).trans houter)
  have hall : Element.all readExtension (extensions.map Extension.encode).flatten =
      some extensions :=
    Element.all_written rfl (fun _ _ => List.cons_ne_nil _ _) hitem
  rw [← List.append_nil (Asn1.encode (Asn1.context 3) _)]
  apply nested_encode (by decide) houter
  rw [← List.append_nil (Asn1.encodeSequence _)]
  apply nested_encode (by decide) hinner
  rw [hall]
  cases extensions with
  | nil => exact absurd rfl hsome
  | cons e extensions => rfl

/-- The parts of what is signed. -/
structure Parts where
  serial : Bytes
  algorithm : Bytes
  issuer : Bytes
  validity : Bytes
  subject : Bytes
  publicKey : Bytes
  extensions : List Extension

namespace Parts

variable {p : Parts} {signature : Bytes}

/-- The parts in their written form. -/
def written (p : Parts) : List Bytes :=
  [Asn1.encode (Asn1.context 0) (Asn1.encodeNat 2), Asn1.encode Asn1.integer p.serial,
    Asn1.encode Asn1.sequence p.algorithm, Asn1.encode Asn1.sequence p.issuer,
    Asn1.encode Asn1.sequence p.validity, Asn1.encode Asn1.sequence p.subject,
    Asn1.encode Asn1.sequence p.publicKey,
    Asn1.encode (Asn1.context 3) (Asn1.encodeSequence (p.extensions.map Extension.encode))]

def body (p : Parts) : Bytes :=
  Asn1.encodeSequence p.written

/-- The certificate that is made of the parts, once they are signed. -/
def certificate (p : Parts) (signature : Bytes) : List Bytes :=
  [p.body, Asn1.encode Asn1.sequence p.algorithm, Asn1.encodeBits signature]

/-- What is read of it. -/
def strict (p : Parts) (signature : Bytes) : StrictCertificate where
  serial := p.serial
  algorithm := p.algorithm
  issuer := p.issuer
  validity := p.validity
  subject := p.subject
  publicKey := p.publicKey
  basicConstraints := valueOf p.extensions Oid.basicConstraints
  purposes := valueOf p.extensions Oid.extendedKeyUsage
  body := p.body
  signature := signature

theorem readBody_written (hsome : p.extensions ≠ [])
    (hacceptable : areAcceptable p.extensions = true) (hlength : p.body.length < 65536) :
    readBody p.algorithm p.written.flatten = some { p.strict signature with
      body := [], signature := [] } := by
  have hpart : ∀ part ∈ p.written, part.length < 65536 := by
    intro part hpart
    exact (Asn1.length_lt_length_encodeSequence hpart).trans hlength
  simp only [written, List.forall_mem_cons] at hpart
  obtain ⟨-, hserial, halgorithm, hissuer, hvalidity, hsubject, hkey, hextensions, -⟩ := hpart
  have hversion (rest : Bytes) : expect (Asn1.context 0)
      (Asn1.encode (Asn1.context 0) [Asn1.integer, 1, 2] ++ rest) =
        some ([Asn1.integer, 1, 2], rest) :=
    expect_encode (by decide) (by decide) rest
  have hread {identifier : UInt8} {content : Bytes} (hidentifier : identifier.toNat % 32 ≠ 31)
      (hpart : (Asn1.encode identifier content).length < 65536) (rest : Bytes) :
      expect identifier (Asn1.encode identifier content ++ rest) = some (content, rest) :=
    expect_encode hidentifier ((Asn1.length_lt_length_encode _ _).trans hpart) rest
  have htwo : Asn1.encodeNat 2 = [Asn1.integer, 1, 2] := by decide
  simp only [readBody, readParts, written, List.flatten_cons, List.flatten_nil, List.append_nil,
    Option.bind_eq_bind, Option.bind_some, htwo, hversion, ne_eq, not_true_eq_false, if_false,
    hread (show Asn1.integer.toNat % 32 ≠ 31 by decide) hserial,
    hread (show Asn1.sequence.toNat % 32 ≠ 31 by decide) halgorithm,
    hread (show Asn1.sequence.toNat % 32 ≠ 31 by decide) hissuer,
    hread (show Asn1.sequence.toNat % 32 ≠ 31 by decide) hvalidity,
    hread (show Asn1.sequence.toNat % 32 ≠ 31 by decide) hsubject,
    hread (show Asn1.sequence.toNat % 32 ≠ 31 by decide) hkey,
    readExtensions_encode hsome hextensions, Option.pure_def, List.isEmpty_nil, hacceptable,
    and_self, if_true]
  rfl

/-- A certificate whose extensions can be accepted is read back strictly, unless it is too long. -/
theorem read_certificate (hsome : p.extensions ≠ [])
    (hacceptable : areAcceptable p.extensions = true)
    (hlength : (p.certificate signature).flatten.length < 65536) :
    read (Asn1.encodeSequence (p.certificate signature)) = some (p.strict signature) := by
  -- Every part is shorter than the whole, so that no length in it needs three bytes.
  have hpart : ∀ part ∈ p.certificate signature, part.length < 65536 := by
    intro part hpart
    exact (List.sublist_flatten_of_mem hpart).length_le.trans_lt hlength
  simp only [certificate, List.forall_mem_cons] at hpart
  obtain ⟨hbody, halgorithm, hsignature, -⟩ := hpart
  have hwhole : expect Asn1.sequence (Asn1.encodeSequence (p.certificate signature)) =
      some ((p.certificate signature).flatten, []) := by
    rw [← List.append_nil (Asn1.encodeSequence _)]
    exact expect_encode (by decide) hlength []
  have hbodyRead (rest : Bytes) : Element.readStrict (p.body ++ rest) =
      some (⟨Asn1.sequence, p.written.flatten, p.body⟩, rest) :=
    Element.readStrict_encode (by decide)
      ((Asn1.length_lt_length_encode Asn1.sequence _).trans hbody) rest
  have halgorithmRead (rest : Bytes) : expect Asn1.sequence
      (Asn1.encode Asn1.sequence p.algorithm ++ rest) = some (p.algorithm, rest) :=
    expect_encode (by decide) ((Asn1.length_lt_length_encode _ _).trans halgorithm) rest
  have hbits : expect Asn1.bitString (Asn1.encodeBits signature) = some (0 :: signature, []) := by
    rw [← List.append_nil (Asn1.encodeBits signature)]
    exact expect_encode (by decide) ((Asn1.length_lt_length_encode _ _).trans hsignature) []
  rw [read, readSigned, hwhole]
  simp only [certificate, List.flatten_cons, List.flatten_nil, List.append_nil,
    Option.bind_eq_bind, Option.bind_some, hbodyRead, halgorithmRead, hbits, List.isEmpty_nil,
    and_self, if_true, Option.pure_def, @readBody_written p signature hsome hacceptable hbody]
  rfl

/-- A longer one is not read. -/
theorem read_of_le (hlength : 65536 ≤ (p.certificate signature).flatten.length) :
    read (Asn1.encodeSequence (p.certificate signature)) = none := by
  have hwhole : expect Asn1.sequence (Asn1.encodeSequence (p.certificate signature)) = none := by
    rw [← List.append_nil (Asn1.encodeSequence _)]
    exact expect_of_le hlength []
  simp only [read, readSigned, hwhole, Option.bind_eq_bind, Option.bind_none]

end Parts

/-- A certificate is valid from its first second to its last, if the first is not before 1970. -/
theorem isValidAt_written {c : StrictCertificate} {first last seconds : Int} {before after : Bytes}
    (hbefore : (CertificateDate.ofSeconds first).encode? = some before)
    (hafter : (CertificateDate.ofSeconds last).encode? = some after)
    (hvalidity : c.validity = before ++ after) :
    c.isValidAt seconds = true ↔ 0 ≤ first ∧ first ≤ seconds ∧ seconds ≤ last := by
  have hread := CertificateDate.readStrict_written hbefore after
  have hrest := CertificateDate.readStrict_written hafter []
  rw [List.append_nil] at hrest
  rw [isValidAt, hvalidity, hread]
  by_cases hfirst : 0 ≤ first
  · rw [if_pos hfirst]
    dsimp only
    rw [hrest]
    by_cases hlast : 0 ≤ last
    · rw [if_pos hlast]
      change decide (first ≤ last ∧ first ≤ seconds ∧ seconds ≤ last) = true ↔ _
      rw [decide_eq_true_eq]
      omega
    · rw [if_neg hlast]
      simp only [Bool.false_eq_true, false_iff]
      omega
  · rw [if_neg hfirst]
    simp only [Bool.false_eq_true, false_iff]
    omega

end X509.StrictCertificate

end CertAuthority
