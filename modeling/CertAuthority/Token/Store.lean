import CertAuthority.Procedure

/-!
# The store of tokens

Tokens are entered, spent once, and removed some time after they have expired.
-/

namespace CertAuthority.Tokens

/-! ## Issuing tokens

A token gets a random identifier; should the table know it already, another one is drawn, three
times in all.
-/

/-- What an operator asks for. -/
structure Order where
  commonName : Option String
  /-- In seconds. -/
  validity : Int
  sources : Option AddressSet
  createdBy : String
  comment : String
  deriving DecidableEq

/-- Refuses an order that no token can fulfil. -/
def Order.check (order : Order) : Except CaError Unit :=
  let named : Except CaError Unit := match order.commonName with
    | some name => ((CommonName.parse name).map fun _ => ()).mapError .identity
    | none => .ok ()
  match named with
  | .error e => .error e
  | .ok () =>
    if Text.isAllBlank order.createdBy then
      .error (.invalidArgument "created_by must not be empty")
    else .ok ()

/-- The identifier of thirty-two random bytes. -/
def identifierOf (random : Bytes) : TokenId :=
  TokenId.ofRandom (random.take 16) (random.drop 16)

/-- A token that fulfils an order from now on. -/
def make (order : Order) (now : Instant) : Procedure BootstrapToken :=
  if order.validity < 0 then
    .error (.invalidArgument "token validity must not be negative")
  else
    .call (.random 32) fun random =>
      match now.addSeconds? order.validity with
      | none => .fail .calendar
      | some expiresAt =>
        .done (BootstrapToken.create (identifierOf random) order.commonName order.sources
          order.createdBy order.comment now expiresAt)

/-- How often an identifier is drawn. -/
def maxAttempts : Nat := 3

/-- What follows upon the attempt to enter a token. -/
def entered (token : BootstrapToken) (retry : Procedure BootstrapToken) :
    Except CaError Nat → Procedure BootstrapToken
  | .ok _ => .done token
  | .error (.conflict _) => retry
  | .error e => .error e

def issueFrom (order : Order) : Nat → Procedure BootstrapToken
  | 0 => .error (.internal "Failed to allocate a unique bootstrap token id")
  | attempts + 1 => do
    let now ← Procedure.now
    let token ← make order now
    let reply ← Procedure.ask .tokens (.create token.tokenId.text token)
    entered token (issueFrom order attempts) reply

def issue (order : Order) : Procedure BootstrapToken :=
  match order.check with
  | .error e => .error e
  | .ok () => issueFrom order maxAttempts

/-! ## Redeeming tokens

A token is read, checked, and written back as used at the revision that was read.  If it was
changed in between, it is read and checked anew.
-/

/-- Who redeems a token, and from where. -/
structure Redemption where
  tokenId : TokenId
  commonName : String
  source : IpAddress
  deriving DecidableEq

/-- What follows upon the attempt to write a token back. -/
def written (consumed : BootstrapToken) (again : Procedure BootstrapToken) :
    Except CaError Nat → Procedure BootstrapToken
  | .ok _ => .done consumed
  | .error (.conflict _) => again
  | .error e => .error e

/-- Checks a token that was read and writes it back as used. -/
def spend (redemption : Redemption) (now : Instant) (current : Versioned BootstrapToken)
    (again : Procedure BootstrapToken) : Procedure BootstrapToken :=
  match current.value.checkRedeemable now redemption.commonName redemption.source with
  | .error reason => .error (.token reason)
  | .ok () =>
    let consumed := current.value.markUsed now redemption.commonName redemption.source
    .call (.table .tokens (.update redemption.tokenId.text consumed current.revision))
      (written consumed again)

/-- What follows upon reading a token. -/
def examine (redemption : Redemption) (now : Instant) (again : Procedure BootstrapToken) :
    Except CaError (Option (Versioned BootstrapToken)) → Procedure BootstrapToken
  | .error e => .error e
  | .ok none => .error (.token .notFound)
  | .ok (some current) => spend redemption now current again

/-- Redeems a token in at most this many rounds. -/
def redeem (redemption : Redemption) : Nat → Procedure BootstrapToken
  | 0 => .fail .unfinished
  | rounds + 1 =>
    .call .now fun now =>
      .call (.table .tokens (.get redemption.tokenId.text))
        (examine redemption now (redeem redemption rounds))

/-! ## Removing stale tokens

A token that was never used is removed once it has been expired for longer than a time of grace.
Used tokens stay as a record.  A token that changes while the table is gone through is left for
the next time.
-/

/-- Whether a token is to be removed; nothing if its end of grace leaves the calendar. -/
def isStale? (token : BootstrapToken) (now : Instant) (grace : Int) : Option Bool :=
  if token.isUsed then some false
  else (token.expiresAt.addSeconds? grace).map fun last => last < now

/-- What follows upon the attempt to remove a token. -/
def removed (next : Nat → Procedure Nat) (count : Nat) : Except CaError Unit → Procedure Nat
  | .ok () => next (count + 1)
  | .error (.conflict _) => next count
  | .error e => .error e

/-- Goes through the entries of a listing and counts what it removes. -/
def pruneEntries (now : Instant) (grace : Int) : Entries BootstrapToken → Nat → Procedure Nat
  | [], count => .done count
  | (key, entry) :: rest, count =>
    match isStale? entry.value now grace with
    | none => .fail .calendar
    | some false => pruneEntries now grace rest count
    | some true =>
      .call (.table .tokens (.delete key entry.revision))
        (removed (pruneEntries now grace rest) count)

/-- Removes the stale tokens and says how many they were. -/
def prune (now : Instant) (grace : Int) : Procedure Nat := do
  let entries ← Procedure.query .tokens .list
  pruneEntries now grace entries 0

/-- An error on the way counts as nothing removed. -/
def ignoringErrors : Procedure Nat → Procedure Nat
  | .done n => .done n
  | .fail (.error _) => .done 0
  | .fail f => .fail f
  | .call e next => .call e fun reply => ignoringErrors (next reply)

/-- One sweep of the background sweeper. -/
def sweep (grace : Int) : Procedure Nat := do
  let now ← Procedure.now
  ignoringErrors (prune now grace)

end CertAuthority.Tokens
