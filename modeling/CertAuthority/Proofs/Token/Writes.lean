import CertAuthority.Proofs.Office.Calls
import CertAuthority.Token.Export
import CertAuthority.Token.Store

/-!
# What is written to the tokens

A token is marked as used only if it may be redeemed as it was read, issued unused, and pruned.
-/

namespace CertAuthority.Tokens

open Effect (among_of_not_asksWrite among_of_writes)
open Procedure (asks_now asks_reading)

variable {writes : Effect → Prop}

theorem redeem_asks {redemption : Redemption}
    (hspend : ∀ (read : Versioned BootstrapToken) now,
      read.value.checkRedeemable now redemption.commonName redemption.source = .ok () →
        writes (.table .tokens (.update redemption.tokenId.text
          (read.value.markUsed now redemption.commonName redemption.source) read.revision)))
    (rounds : Nat) : (redeem redemption rounds).Asks writes := by
  induction rounds with
  | zero => trivial
  | succ rounds ih =>
      refine ⟨among_of_not_asksWrite rfl writes, fun now =>
        ⟨among_of_not_asksWrite rfl writes, fun reply => ?_⟩⟩
      unfold examine
      split
      · trivial
      · trivial
      · next read =>
          unfold spend
          split
          · trivial
          · next hredeemable =>
              refine ⟨among_of_writes (hspend read now hredeemable), fun reply => ?_⟩
              unfold written
              split
              · trivial
              · exact ih
              · trivial

theorem make_yields {order : Order} {now : Instant} :
    (make order now).Quiet fun token => token.isUsed = false := by
  unfold make
  split
  · exact nofun
  · refine ⟨rfl, fun random => ?_⟩
    split
    · exact nofun
    · rfl

theorem issueFrom_asks
    (hissue : ∀ token : BootstrapToken, token.isUsed = false →
      writes (.table .tokens (.create token.tokenId.text token)))
    (order : Order) (attempts : Nat) :
    (issueFrom order attempts).Asks writes := by
  induction attempts with
  | zero => trivial
  | succ attempts ih =>
      refine (asks_now writes).bind fun now => make_yields.asks_bind fun token hunused => ?_
      refine ⟨among_of_writes (hissue token hunused), fun reply => ?_⟩
      change (entered token _ reply).Asks writes
      unfold entered
      split
      · trivial
      · exact ih
      · trivial

theorem issue_asks
    (hissue : ∀ token : BootstrapToken, token.isUsed = false →
      writes (.table .tokens (.create token.tokenId.text token)))
    (order : Order) : (issue order).Asks writes := by
  unfold issue
  split
  · trivial
  · exact issueFrom_asks hissue order maxAttempts

theorem pruneEntries_asks (hprune : ∀ key revision, writes (.table .tokens (.delete key revision)))
    (now : Instant) (grace : Int) (entries : Entries BootstrapToken) (count : Nat) :
    (pruneEntries now grace entries count).Asks writes := by
  induction entries generalizing count with
  | nil => trivial
  | cons head tail ih =>
      unfold pruneEntries
      split
      · trivial
      · exact ih count
      · refine ⟨among_of_writes (hprune _ _), fun reply => ?_⟩
        unfold removed
        split
        · exact ih _
        · exact ih _
        · trivial

theorem get_asks (id : TokenId) : (get id).Asks writes :=
  (asks_reading rfl writes).bind fun entry => by cases entry <;> trivial

end CertAuthority.Tokens
