import CertAuthority.Proofs.Authority.Acceptance
import CertAuthority.Proofs.Authority.Presentation
import CertAuthority.Proofs.Certificate.SerialNumber

/-!
# One serial number on all paths

The bytes that are drawn for a certificate are changed so that the integer which is written has
them as its content, with no byte taken off and none put in front.  So the serial number in the
record, the one that is read from the certificate, and whatever an operator may type for it are one
text of thirty-two digits.  It is a good serial number, too, so that everybody who presents the
certificate while its authority admits it is known by that text.
-/

namespace CertAuthority

open X509

section Draw

variable {random : Bytes}

theorem SerialNumber.length_bytesOfRandom (random : Bytes) :
    (bytesOfRandom random).length = random.length := by
  cases random <;> rfl

/-- The first byte is neither zero nor has it the top bit. -/
theorem SerialNumber.exists_bytesOfRandom (hrandom : random ≠ []) :
    ∃ first rest, bytesOfRandom random = first :: rest ∧ first ≠ 0 ∧ first < 0x80 := by
  cases random with
  | nil => exact absurd rfl hrandom
  | cons b rest =>
      refine ⟨_, rest, rfl, ?_⟩
      have hmasked : (b &&& 0x7F).toNat < 128 := by
        rw [UInt8.toNat_and]
        exact Nat.lt_succ_of_le Nat.and_le_right
      split
      · decide
      · next hzero => exact ⟨hzero, UInt8.lt_iff_toNat_lt.mpr hmasked⟩

/-- An integer of such bytes is written as they are. -/
theorem Asn1.encodeUnsigned_bytesOfRandom (hrandom : random ≠ []) :
    encodeUnsigned (SerialNumber.bytesOfRandom random) =
      encode integer (SerialNumber.bytesOfRandom random) := by
  obtain ⟨first, rest, hbytes, hzero, htop⟩ := SerialNumber.exists_bytesOfRandom hrandom
  have hdigits : (first :: rest).dropWhile (· = 0) = first :: rest :=
    List.dropWhile_cons_of_neg (by simpa using hzero)
  rw [hbytes, encodeUnsigned, hdigits]
  exact congrArg (encode integer) (if_neg (UInt8.not_le.mpr htop))

/-- It is the serial number of a client, who is asked for a positive one of at most twenty bytes. -/
theorem X509.StrictCertificate.hasGoodSerial_of_random {client : StrictCertificate}
    (hrandom : random.length = SerialNumber.size)
    (hserial : client.serial = SerialNumber.bytesOfRandom random) :
    client.hasGoodSerial = true := by
  have hsome : random ≠ [] := by
    rintro rfl
    cases hrandom
  obtain ⟨first, rest, hbytes, hzero, htop⟩ := SerialNumber.exists_bytesOfRandom hsome
  have hlength := SerialNumber.length_bytesOfRandom random
  rw [hbytes] at hserial hlength
  rw [List.length_cons, hrandom, SerialNumber.size] at hlength
  rw [hasGoodSerial, hserial]
  split
  · next hnone => cases hnone
  · next hone =>
      cases hone
      cases hlength
  · next hpadded =>
      cases hpadded
      exact absurd rfl hzero
  · next hmore =>
      cases hmore
      exact decide_eq_true ⟨htop, by omega⟩

end Draw

/-- Whether a certificate has one serial number on all paths: in its record, in its text, for those
who present it and for those who type it. -/
structure IssuedCertificate.Keyed (issued : IssuedCertificate) : Prop where
  length : issued.serialNumber.text.toList.length = 2 * SerialNumber.size
  digits : ∀ d ∈ issued.serialNumber.text.toList, d ∈ Hex.upperDigits
  /-- The content of the integer in the certificate gives it. -/
  read : ∃ der certificate,
    Authority.readCertificate issued.certificatePem = .ok (der, certificate) ∧
      SerialNumber.ofBytes certificate.serial = issued.serialNumber ∧
        ∀ name, certificate.subject.commonName? = some name →
          CallerIdentity.ofCertificate der = .ok ⟨name, some issued.serialNumber⟩
  /-- Whoever presents the certificate is known by it. -/
  presented : ∀ authorityDer now caller,
    CallerIdentity.ofClientCertificate issued.certificatePem authorityDer now = .ok caller →
      caller.serialNumber = some issued.serialNumber
  /-- Everybody who presents it is, as long as the authority admits the certificate, and nobody
  else is let in with it. -/
  admitted : ∃ der certificate,
    Authority.readCertificate issued.certificatePem = .ok (der, certificate) ∧
      ∀ authorityDer now caller,
        CallerIdentity.ofClientCertificate issued.certificatePem authorityDer now = .ok caller ↔
          certificate.Admitted der authorityDer now.seconds ∧
            certificate.subject.commonName? = some caller.commonName ∧
              caller.serialNumber = some issued.serialNumber
  /-- What an operator may type for it, and nothing else, is read as it. -/
  typed : ∀ input, SerialNumber.parse input = .ok issued.serialNumber ↔
    SerialNumber.Typed input.toList issued.serialNumber.text.toList

namespace Issuance

variable {a : Authority} {c : Candidate} {csrPem : String} {days : Nat}
variable {issuer : CertificateIssuer} {now : Instant} {draw : Draw} {issued : IssuedCertificate}

/-- Every draw of the right length gives a certificate that has one serial number on all paths. -/
theorem keyed_of_sign {random : Bytes} (hrandom : random.length = SerialNumber.size) {nonce : Nat}
    (hsigned : sign a csrPem days issuer now ⟨SerialNumber.bytesOfRandom random, nonce⟩ =
      .ok issued) : issued.Keyed := by
  have hserial := serialNumber_of_sign hsigned
  have hsome : random ≠ [] := by
    rintro rfl
    cases hrandom
  have hbytes : SerialNumber.bytesOfRandom random ≠ [] := by
    obtain ⟨first, rest, hbytes, -, -⟩ := SerialNumber.exists_bytesOfRandom hsome
    rw [hbytes]
    exact List.cons_ne_nil _ _
  have hwritten := SerialNumber.isWritten_ofBytes hbytes
  obtain ⟨c, -, hissued⟩ := exists_issue_of_sign hsigned
  obtain ⟨der, certificate, hcontents, hread, hnumber, hadmitted⟩ :=
    exists_admitted_of_issue hissued (Asn1.encodeUnsigned_bytesOfRandom hsome) fun _ hserial =>
      StrictCertificate.hasGoodSerial_of_random hrandom hserial
  have hsame : SerialNumber.ofBytes certificate.serial = issued.serialNumber := by
    rw [hnumber, hserial]
  rw [← hserial] at hwritten
  have hcertificate : Authority.readCertificate issued.certificatePem = .ok (der, certificate) := by
    simp only [Authority.readCertificate, hcontents, hread]
  have hcaller (caller : CallerIdentity) : CallerIdentity.ofCertificate der = .ok caller ↔
      certificate.subject.commonName? = some caller.commonName ∧
        caller.serialNumber = some issued.serialNumber := by
    rw [← hsame]
    exact CallerIdentity.ofCertificate_eq_ok_iff hread
  exact {
    length := by
      rw [hserial, SerialNumber.ofBytes, Hex.length_encodeUpper, SerialNumber.length_bytesOfRandom,
        hrandom]
    digits := hwritten.upper
    read := ⟨der, certificate, hcertificate, hsame,
      fun name hname => (hcaller ⟨name, some issued.serialNumber⟩).mpr ⟨hname, rfl⟩⟩
    presented := by
      intro authorityDer now caller hpresented
      exact ((hcaller caller).mp ((hadmitted authorityDer now caller).mp hpresented).2).2
    admitted := by
      refine ⟨der, certificate, hcertificate, fun authorityDer now caller => ?_⟩
      rw [hadmitted, hcaller]
    typed := by
      intro input
      rw [SerialNumber.parse_eq_ok_iff]
      exact and_iff_right hwritten }

end Issuance

end CertAuthority
