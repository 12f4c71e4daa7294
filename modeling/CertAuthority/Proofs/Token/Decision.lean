import CertAuthority.Proofs.Office.Course
import CertAuthority.Proofs.Token.Spending

/-!
# When a token is redeemed

Five conditions decide whether a token is redeemed, and the first of them that fails is the reason
that is given: the token is there, it is in time, it was not used, it is meant for the address and
for the name.  Whoever redeems a token with nothing in between gets it exactly if all of them hold.
Then its entry is marked and goes to the next revision; otherwise nothing changes at all.
-/

namespace CertAuthority.Tokens

open Versioned (nextRevision)

/-- That a token may be used from an address: one that names none may be used from any. -/
def Admits (token : BootstrapToken) (source : IpAddress) : Prop :=
  ∀ allowed, token.allowedSourceIps = some allowed →
    allowed.addresses = [] ∨ source ∈ allowed.addresses

/-- That a token may be redeemed at a time. -/
structure Fits (redemption : Redemption) (token : BootstrapToken) (now : Instant) : Prop where
  inTime : now < token.expiresAt
  unused : token.usedAt = none
  source : Admits token redemption.source
  name : ∀ expected, token.expectedCommonName = some expected → expected = redemption.commonName

/-- Why what stands under an identifier may not be redeemed at a time: the first reason that
applies. -/
inductive Refuses (redemption : Redemption) (now : Instant) :
    Option (Versioned BootstrapToken) → RedeemError → Prop where
  | unknown : Refuses redemption now none .notFound
  | expired {held : Versioned BootstrapToken} (hend : held.value.expiresAt ≤ now) :
    Refuses redemption now (some held) .expired
  | used {held : Versioned BootstrapToken} (htime : now < held.value.expiresAt)
    (hused : held.value.usedAt ≠ none) : Refuses redemption now (some held) .alreadyUsed
  | stranger {held : Versioned BootstrapToken} (htime : now < held.value.expiresAt)
    (hunused : held.value.usedAt = none) (hsource : ¬ Admits held.value redemption.source) :
    Refuses redemption now (some held) (.sourceNotAllowed redemption.source.render)
  | misnamed {held : Versioned BootstrapToken} {expected : String}
    (htime : now < held.value.expiresAt) (hunused : held.value.usedAt = none)
    (hsource : Admits held.value redemption.source)
    (hexpected : held.value.expectedCommonName = some expected)
    (hname : expected ≠ redemption.commonName) :
    Refuses redemption now (some held) (.subjectMismatch expected redemption.commonName)

section Check

variable {redemption : Redemption} {token : BootstrapToken} {held : Versioned BootstrapToken}
  {now : Instant} {reason : RedeemError}

theorem isUsed_eq_false_iff : token.isUsed = false ↔ token.usedAt = none :=
  Option.isSome_eq_false_iff.trans Option.isNone_iff_eq_none

theorem allowsSource_iff {source : IpAddress} :
    token.allowsSource source ↔ Admits token source := by
  unfold BootstrapToken.allowsSource Admits
  cases token.allowedSourceIps with
  | none => simp
  | some allowed => simp [AddressSet.isEmpty, AddressSet.contains]

theorem checkRedeemable_eq_ok_iff_fits :
    token.checkRedeemable now redemption.commonName redemption.source = .ok () ↔
      Fits redemption token now := by
  rw [checkRedeemable_eq_ok_iff, isExpiredAt_eq_false_iff, isUsed_eq_false_iff, allowsSource_iff]
  exact ⟨fun h => ⟨h.1, h.2.1, h.2.2.1, h.2.2.2⟩, fun h => ⟨h.inTime, h.unused, h.source, h.name⟩⟩

/-- A token is refused for the reason that applies first. -/
theorem checkRedeemable_of_refuses (hrefuses : Refuses redemption now (some held) reason) :
    held.value.checkRedeemable now redemption.commonName redemption.source = .error reason := by
  unfold BootstrapToken.checkRedeemable
  cases hrefuses with
  | expired hend =>
      have hexpired : held.value.isExpiredAt now = true := decide_eq_true hend
      rw [hexpired]
      rfl
  | used htime hused =>
      rw [← isExpiredAt_eq_false_iff] at htime
      have hmarked : held.value.isUsed = true := Option.isSome_iff_ne_none.mpr hused
      rw [htime, hmarked]
      rfl
  | stranger htime hunused hsource =>
      rw [← isExpiredAt_eq_false_iff] at htime
      rw [← isUsed_eq_false_iff] at hunused
      rw [← allowsSource_iff, Bool.not_eq_true] at hsource
      rw [htime, hunused, hsource]
      rfl
  | misnamed htime hunused hsource hexpected hname =>
      rw [← isExpiredAt_eq_false_iff] at htime
      rw [← isUsed_eq_false_iff] at hunused
      rw [← allowsSource_iff] at hsource
      rw [htime, hunused, hsource, hexpected]
      exact if_neg hname

/-- What stands under an identifier fits, or there is a reason to refuse it. -/
theorem fits_or_refuses (redemption : Redemption) (now : Instant)
    (held? : Option (Versioned BootstrapToken)) :
    (∃ held, held? = some held ∧ Fits redemption held.value now) ∨
      ∃ reason, Refuses redemption now held? reason := by
  cases held? with
  | none => exact .inr ⟨_, .unknown⟩
  | some held =>
      by_cases htime : now < held.value.expiresAt
      case neg => exact .inr ⟨_, .expired (Instant.not_lt.mp htime)⟩
      by_cases hunused : held.value.usedAt = none
      case neg => exact .inr ⟨_, .used htime hunused⟩
      by_cases hsource : Admits held.value redemption.source
      case neg => exact .inr ⟨_, .stranger htime hunused hsource⟩
      by_cases hname : ∀ expected, held.value.expectedCommonName = some expected →
        expected = redemption.commonName
      · exact .inl ⟨held, rfl, htime, hunused, hsource, hname⟩
      · push Not at hname
        obtain ⟨expected, hexpected, hother⟩ := hname
        exact .inr ⟨_, .misnamed htime hunused hsource hexpected hother⟩

theorem Refuses.not_fits (hrefuses : Refuses redemption now (some held) reason) :
    ¬ Fits redemption held.value now := by
  intro hfits
  have hok := checkRedeemable_eq_ok_iff_fits.mpr hfits
  rw [checkRedeemable_of_refuses hrefuses] at hok
  cases hok

/-- There is one reason that applies first. -/
theorem Refuses.unique {held? : Option (Versioned BootstrapToken)} {other : RedeemError}
    (hrefuses : Refuses redemption now held? reason) (hother : Refuses redemption now held? other) :
    other = reason := by
  cases held? with
  | none =>
      cases hrefuses
      cases hother
      rfl
  | some held =>
      have hsame := (checkRedeemable_of_refuses hother).symm.trans
        (checkRedeemable_of_refuses hrefuses)
      exact Except.error.inj hsame

/-- A token is valid if there is somebody who could redeem it from somewhere. -/
theorem isValidAt_iff (id : TokenId) :
    token.isValidAt now ↔ ∃ commonName source, Fits ⟨id, commonName, source⟩ token now := by
  have hvalid : token.isValidAt now ↔ token.usedAt = none ∧ now < token.expiresAt := by
    rw [← isUsed_eq_false_iff, ← isExpiredAt_eq_false_iff]
    simp [BootstrapToken.isValidAt]
  rw [hvalid]
  constructor
  · rintro ⟨hunused, htime⟩
    obtain ⟨source, hsource⟩ : ∃ source, Admits token source := by
      cases hallowed : token.allowedSourceIps with
      | none => exact ⟨.v4 0 0 0 0, by simp [Admits, hallowed]⟩
      | some allowed =>
          cases haddresses : allowed.addresses with
          | nil => exact ⟨.v4 0 0 0 0, by simp [Admits, hallowed, haddresses]⟩
          | cons first rest => exact ⟨first, by simp [Admits, hallowed, haddresses]⟩
    refine ⟨token.expectedCommonName.getD "", source, htime, hunused, hsource, ?_⟩
    intro expected hexpected
    simp [hexpected]
  · rintro ⟨commonName, source, hfits⟩
    exact ⟨hfits.unused, hfits.inTime⟩

/-- A token that was used is refused as expired or as used. -/
theorem Refuses.of_used (hrefuses : Refuses redemption now (some held) reason)
    (hused : held.value.isUsed) : reason = .expired ∨ reason = .alreadyUsed := by
  have hmarked : held.value.usedAt ≠ none := Option.isSome_iff_ne_none.mp hused
  cases hrefuses with
  | expired hend => exact .inl rfl
  | used htime _ => exact .inr rfl
  | stranger htime hunused hsource => exact absurd hunused hmarked
  | misnamed htime hunused hsource hexpected hname => exact absurd hunused hmarked

end Check

/-- What redeeming a token with nothing in between is left to. -/
structure Trial where
  /-- How many rounds are granted beyond the first. -/
  rounds : Nat
  task : Nat
  clock : Chance
  reading : Chance
  writing : Chance
  more : List Chance

namespace Trial

variable {trial : Trial} {redemption : Redemption} {w : World}

/-- What is left of a redemption with nothing in between, and the world after it. -/
def run (trial : Trial) (redemption : Redemption) (w : World) : Procedure BootstrapToken × World :=
  (redeem redemption (trial.rounds + 1)).alone .reliable trial.task
    (trial.clock :: trial.reading :: trial.writing :: trial.more) w

/-- The world after the clock and the token were read. -/
def read (trial : Trial) (redemption : Redemption) (w : World) : World :=
  (w.after .reliable trial.clock trial.task .now).after .reliable trial.reading trial.task
    (.table .tokens (.get redemption.tokenId.text))

theorem run_eq (trial : Trial) (redemption : Redemption) (w : World) :
    trial.run redemption w =
      (examine redemption trial.clock.time (redeem redemption trial.rounds)
        (.ok (w.find? .tokens redemption.tokenId.text))).alone .reliable trial.task
          (trial.writing :: trial.more) (trial.read redemption w) :=
  rfl

theorem tables_read (trial : Trial) (redemption : Redemption) (w : World) :
    (trial.read redemption w).tables = w.tables := by
  funext name
  apply World.tables_after_of_not_writesTo
  rfl

theorem find?_read (trial : Trial) (redemption : Redemption) (w : World) (key : String) :
    (trial.read redemption w).find? .tokens key = w.find? .tokens key := by
  rw [World.find?, tables_read, World.find?]

theorem run_of_refuses {reason : RedeemError}
    (hrefuses : Refuses redemption trial.clock.time (w.find? .tokens redemption.tokenId.text)
      reason) :
    trial.run redemption w = (.fail (.error (.token reason)), trial.read redemption w) := by
  rw [run_eq]
  cases hfind : w.find? .tokens redemption.tokenId.text with
  | none =>
      rw [hfind] at hrefuses
      cases hrefuses with
      | unknown => exact Procedure.alone_of_ended rfl _ _ _
  | some held =>
      rw [hfind] at hrefuses
      simp only [examine, spend, checkRedeemable_of_refuses hrefuses]
      exact Procedure.alone_of_ended rfl _ _ _

theorem run_of_fits {held : Versioned BootstrapToken}
    (hfind : w.find? .tokens redemption.tokenId.text = some held)
    (hfits : Fits redemption held.value trial.clock.time) :
    ∃ left : World,
      trial.run redemption w = (.done (held.value.markUsed trial.clock.time redemption.commonName
        redemption.source), left) ∧
      left.tables = Function.update w.tables .tokens
        ⟨(w.tables .tokens).entries.replace redemption.tokenId.text
          (held.overwrite (held.value.markUsed trial.clock.time redemption.commonName
            redemption.source))⟩ := by
  have hread := (find?_read trial redemption w redemption.tokenId.text).trans hfind
  obtain ⟨hreply, htables⟩ := World.update_of_current trial.writing trial.task
    (held.value.markUsed trial.clock.time redemption.commonName redemption.source) hread
  rw [tables_read] at htables
  refine ⟨_, ?_, htables⟩
  rw [run_eq, hfind]
  simp only [examine, spend, checkRedeemable_eq_ok_iff_fits.mpr hfits, Procedure.alone, hreply,
    written]

end Trial

/-- What a redemption that was accepted has changed: its own entry, which bears who has used the
token, when and from where. -/
structure Consumed (redemption : Redemption) (now : Instant) (w left : World)
    (held : Versioned BootstrapToken) (token : BootstrapToken) : Prop where
  found : w.find? .tokens redemption.tokenId.text = some held
  marked : token = { held.value with
    usedAt := some now
    usedByCommonName := some redemption.commonName
    usedFromIp := some redemption.source }
  entry : left.find? .tokens redemption.tokenId.text =
    some ⟨token, nextRevision held.revision⟩
  revision : held.revision < 2 ^ 64 - 1 → nextRevision held.revision = held.revision + 1
  others : ∀ other, other ≠ redemption.tokenId.text →
    left.find? .tokens other = w.find? .tokens other
  keys : (left.tables .tokens).entries.map (·.1) = (w.tables .tokens).entries.map (·.1)
  tables : ∀ name, name ≠ .tokens → left.tables name = w.tables name

theorem nextRevision_of_lt {revision : Nat} (hlt : revision < 2 ^ 64 - 1) :
    nextRevision revision = revision + 1 := by
  have hlimit : Nat.pow 2 64 = 18446744073709551616 := rfl
  rw [nextRevision, hlimit]
  omega

theorem consumed_of_tables {redemption : Redemption} {now : Instant} {w left : World}
    {held : Versioned BootstrapToken}
    (hfind : w.find? .tokens redemption.tokenId.text = some held)
    (htables : left.tables = Function.update w.tables .tokens
      ⟨(w.tables .tokens).entries.replace redemption.tokenId.text
        (held.overwrite (held.value.markUsed now redemption.commonName redemption.source))⟩) :
    Consumed redemption now w left held
      (held.value.markUsed now redemption.commonName redemption.source) where
  found := hfind
  marked := rfl
  entry := by
    rw [World.find?, htables, Function.update_self]
    exact Entries.find?_replace_self _ hfind
  revision := nextRevision_of_lt
  others := by
    intro other hother
    rw [World.find?, htables, Function.update_self]
    exact Entries.find?_replace_of_ne _ _ hother
  keys := by
    rw [htables, Function.update_self]
    exact Entries.keys_replace _ _ _
  tables := by
    intro name hname
    rw [htables, Function.update_of_ne hname]

/-- What has become of a redemption, and of the world. -/
structure Judged (redemption : Redemption) (now : Instant) (w : World)
    (result : Procedure BootstrapToken × World) : Prop where
  ended : (∃ token, result.1 = .done token) ∨
    ∃ reason, result.1 = .fail (.error (.token reason))
  accepted : (∃ token, result.1 = .done token) ↔
    ∃ held, w.find? .tokens redemption.tokenId.text = some held ∧ Fits redemption held.value now
  refused : ∀ reason, result.1 = .fail (.error (.token reason)) ↔
    Refuses redemption now (w.find? .tokens redemption.tokenId.text) reason
  untouched : ∀ f, result.1 = .fail f → result.2.tables = w.tables
  consumed : ∀ token, result.1 = .done token →
    ∃ held, Consumed redemption now w result.2 held token

theorem judged_of_fits {redemption : Redemption} {now : Instant} {w left : World}
    {held : Versioned BootstrapToken} {token : BootstrapToken}
    (hfits : Fits redemption held.value now)
    (hconsumed : Consumed redemption now w left held token) :
    Judged redemption now w (.done token, left) where
  ended := .inl ⟨token, rfl⟩
  accepted := ⟨fun _ => ⟨held, hconsumed.found, hfits⟩, fun _ => ⟨token, rfl⟩⟩
  refused := by
    intro reason
    constructor
    · intro hfail
      cases hfail
    · intro hrefuses
      rw [hconsumed.found] at hrefuses
      exact absurd hfits hrefuses.not_fits
  untouched := by
    intro f hfail
    cases hfail
  consumed := by
    intro other hother
    cases hother
    exact ⟨held, hconsumed⟩

theorem judged_of_refuses {redemption : Redemption} {now : Instant} {w left : World}
    {reason : RedeemError}
    (hrefuses : Refuses redemption now (w.find? .tokens redemption.tokenId.text) reason)
    (htables : left.tables = w.tables) :
    Judged redemption now w (.fail (.error (.token reason)), left) where
  ended := .inr ⟨reason, rfl⟩
  accepted := by
    constructor
    · rintro ⟨token, hdone⟩
      cases hdone
    · rintro ⟨held, hfind, hfits⟩
      rw [hfind] at hrefuses
      exact absurd hfits hrefuses.not_fits
  refused := by
    intro other
    constructor
    · intro hother
      cases hother
      exact hrefuses
    · intro hother
      rw [hrefuses.unique hother]
  untouched := fun _ _ => htables
  consumed := by
    intro token hdone
    cases hdone

theorem Trial.judged (trial : Trial) (redemption : Redemption) (w : World) :
    Judged redemption trial.clock.time w (trial.run redemption w) := by
  rcases fits_or_refuses redemption trial.clock.time (w.find? .tokens redemption.tokenId.text) with
    ⟨held, hfind, hfits⟩ | ⟨reason, hrefuses⟩
  · obtain ⟨left, hrun, htables⟩ := run_of_fits hfind hfits
    rw [hrun]
    exact judged_of_fits hfits (consumed_of_tables hfind htables)
  · rw [run_of_refuses hrefuses]
    exact judged_of_refuses hrefuses (tables_read trial redemption w)

/-- Who finds a token that was used is refused. -/
theorem Trial.run_of_used {trial : Trial} {redemption : Redemption} {w : World}
    {held : Versioned BootstrapToken}
    (hfind : w.find? .tokens redemption.tokenId.text = some held) (hused : held.value.isUsed) :
    trial.run redemption w = (.fail (.error (.token
      (if held.value.expiresAt ≤ trial.clock.time then .expired else .alreadyUsed))),
        trial.read redemption w) := by
  apply run_of_refuses
  rw [hfind]
  split
  · next hend => exact .expired hend
  · next htime => exact .used (Instant.not_le.mp htime) (Option.isSome_iff_ne_none.mp hused)

/-- How the redemption of a token is decided with nothing in between. -/
structure Judgement (redemption : Redemption) (w : World) : Prop where
  judged : ∀ trial : Trial, Judged redemption trial.clock.time w (trial.run redemption w)
  /-- A token that was redeemed is refused from then on, whoever redeems it next and when. -/
  again : ∀ (first second : Trial) (token : BootstrapToken) (rival : Redemption) (later : World),
    (first.run redemption w).1 = .done token → rival.tokenId = redemption.tokenId →
      later.find? .tokens redemption.tokenId.text =
        (first.run redemption w).2.find? .tokens redemption.tokenId.text →
      (second.run rival later).1 = .fail (.error (.token
          (if token.expiresAt ≤ second.clock.time then .expired else .alreadyUsed))) ∧
        (second.run rival later).2.tables = later.tables
  /-- A token is shown as valid exactly if somebody could redeem it from somewhere. -/
  shown : ∀ (trial : Trial) (held : Versioned BootstrapToken),
    w.find? .tokens redemption.tokenId.text = some held →
      (held.value.isValidAt trial.clock.time ↔ ∃ commonName source token,
        (trial.run ⟨redemption.tokenId, commonName, source⟩ w).1 = .done token)

theorem judgement (redemption : Redemption) (w : World) : Judgement redemption w where
  judged trial := trial.judged redemption w
  again := by
    intro first second token rival later hdone hid hlater
    obtain ⟨held, hconsumed⟩ := (first.judged redemption w).consumed token hdone
    rw [hconsumed.entry, ← hid] at hlater
    have hused : token.isUsed := by
      rw [hconsumed.marked]
      rfl
    rw [Trial.run_of_used hlater hused]
    exact ⟨rfl, Trial.tables_read second rival later⟩
  shown := by
    intro trial held hfind
    rw [isValidAt_iff redemption.tokenId]
    refine exists_congr fun commonName => exists_congr fun source => ?_
    rw [(trial.judged ⟨redemption.tokenId, commonName, source⟩ w).accepted]
    constructor
    · exact fun hfits => ⟨held, hfind, hfits⟩
    · rintro ⟨found, hfound, hfits⟩
      obtain rfl := Option.some.inj (hfind.symm.trans hfound)
      exact hfits

end CertAuthority.Tokens
