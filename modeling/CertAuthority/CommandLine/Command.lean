import CertAuthority.Certificate.Basic
import CertAuthority.CommandLine.Arguments
import CertAuthority.Net.AddressSet
import CertAuthority.Token.Export

/-!
# Commands

What the program can be asked to do, and how that is written on its command line.  The file of
the configuration may be named at any place.  Who acts may be named by an option or by the
environment.  To one who asks for help a line is shown for each command, with its options in square
brackets and its operands in angle ones.
-/

namespace CertAuthority

inductive Command where
  | setUp
  | serve
  | showAuthority (onlyInfo : Bool) (out : Option String)
  | issueToken (commonName : Option String) (hours : Option Nat) (sources : List IpAddress)
      (comment createdBy : String)
  | listTokens (all : Bool)
  | exportToken (token : TokenId) (format : ExportFormat) (url out : Option String)
  | pruneTokens
  | submitRequest (csr token : String) (source : IpAddress) (agentInfo : Option String)
  | showRequest (id : RequestId) (outDirectory : Option String) (asJson : Bool)
  | listRequests (onlyPending : Bool)
  | approveRequest (id : RequestId) (days : Option Nat) (comment approver : String)
  | rejectRequest (id : RequestId) (reason rejecter : String)
  | listCertificates (status : Option CertificateStatus)
  | showCertificate (serial : String) (onlyPem : Bool)
  | revokeCertificate (serial revokedBy : String) (confirmed : Bool)
  | renewCertificate (csr certificate : String) (out : Option String)
  deriving DecidableEq

/-- A command with the file that configures it. -/
structure Invocation where
  config : Option String
  command : Command
  deriving DecidableEq

namespace CommandLine

def anyText (_ : String) : Bool := true

def isPath (s : String) : Bool :=
  s ≠ ""

/-- Decimal digits behind an optional sign. -/
def signed? (s : String) : Option Int :=
  let digits? (ds : List Char) : Option Nat :=
    if !ds.isEmpty && ds.all Char.isDigit then
      some (ds.foldl (fun n c => n * 10 + (c.toNat - 48)) 0)
    else none
  match s.toList with
  | '+' :: ds => (digits? ds).map fun n => (n : Int)
  | '-' :: ds => (digits? ds).map fun n => -(n : Int)
  | ds => (digits? ds).map fun n => (n : Int)

/-- A count of 32 bits. -/
def count? (s : String) : Option Nat :=
  match signed? s with
  | some n => if 0 ≤ n ∧ n < Nat.pow 2 32 then some n.toNat else none
  | none => none

def format? (s : String) : Option ExportFormat :=
  (ExportFormat.parse s).toOption

def status? (s : String) : Option CertificateStatus :=
  (CertificateStatus.parse s).toOption

def text (name : String) : OptionSpec :=
  ⟨name, none, .value anyText⟩

def checked {α : Type} (name : String) (read? : String → Option α) : OptionSpec :=
  ⟨name, none, .value fun s => (read? s).isSome⟩

def flag (name : String) : OptionSpec :=
  ⟨name, none, .nothing⟩

def shortFlag (name : String) (short : Char) : OptionSpec :=
  ⟨name, some short, .nothing⟩

/-- The file that is written instead of the standard output. -/
def outOption : OptionSpec :=
  ⟨"out", some 'o', .value isPath⟩

/-- The options that may stand anywhere. -/
def commonOptions : List OptionSpec :=
  [⟨"help", some 'h', .help⟩, text "config"]

def versionOption : OptionSpec :=
  ⟨"version", some 'V', .help⟩

/-- The variable that names who acts. -/
def principalVariable : String := "MWCA_PRINCIPAL"

/-- A command with its own options and operands. -/
structure Form where
  options : List OptionSpec
  operands : Nat
  /-- The command of some arguments, given who acts; nothing if one is missing. -/
  make : Arguments → (principal : Option String) → Option Command

/-- Who acts. -/
def actor (a : Arguments) (principal : Option String) : Option String :=
  (a.value? "by").orElse fun _ => principal

def operand? (a : Arguments) : Option String :=
  a.operands.head?

def setUpForm : Form := ⟨[], 0, fun _ _ => some .setUp⟩

def serveForm : Form := ⟨[], 0, fun _ _ => some .serve⟩

def showAuthorityForm : Form where
  options := [flag "info", outOption]
  operands := 0
  make a _ := some (.showAuthority (a.has "info") (a.value? "out"))

def issueTokenForm : Form where
  options := [text "cn", checked "hours" count?,
    ⟨"allow-ip", none, .values fun s => (IpAddress.parse s).isSome⟩, text "comment", text "by"]
  operands := 0
  make a principal := do
    let createdBy ← actor a principal
    return .issueToken (a.value? "cn") ((a.value? "hours").bind count?)
      ((a.values "allow-ip").filterMap IpAddress.parse) ((a.value? "comment").getD "") createdBy

def listTokensForm : Form where
  options := [shortFlag "all" 'a']
  operands := 0
  make a _ := some (.listTokens (a.has "all"))

def exportTokenForm : Form where
  options := [checked "format" format?, text "url", outOption]
  operands := 1
  make a _ := do
    let token ← operand? a
    return .exportToken ⟨token⟩ (((a.value? "format").bind format?).getD .text) (a.value? "url")
      (a.value? "out")

def pruneTokensForm : Form := ⟨[], 0, fun _ _ => some .pruneTokens⟩

def submitRequestForm : Form where
  options := [text "csr", text "token", checked "source-ip" IpAddress.parse, text "agent-info"]
  operands := 0
  make a _ := do
    let csr ← a.value? "csr"
    let token ← a.value? "token"
    let source := ((a.value? "source-ip").bind IpAddress.parse).getD (.v4 127 0 0 1)
    return .submitRequest csr token source (a.value? "agent-info")

def showRequestForm : Form where
  options := [⟨"out-dir", none, .value isPath⟩, flag "json"]
  operands := 1
  make a _ := do
    let id ← operand? a
    return .showRequest ⟨id⟩ (a.value? "out-dir") (a.has "json")

def listRequestsForm : Form where
  options := [flag "pending"]
  operands := 0
  make a _ := some (.listRequests (a.has "pending"))

def approveRequestForm : Form where
  options := [checked "days" count?, text "comment", text "by"]
  operands := 1
  make a principal := do
    let id ← operand? a
    let approver ← actor a principal
    return .approveRequest ⟨id⟩ ((a.value? "days").bind count?) ((a.value? "comment").getD "")
      approver

def rejectRequestForm : Form where
  options := [text "reason", text "by"]
  operands := 1
  make a principal := do
    let id ← operand? a
    let reason ← a.value? "reason"
    let rejecter ← actor a principal
    return .rejectRequest ⟨id⟩ reason rejecter

def listCertificatesForm : Form where
  options := [checked "status" status?]
  operands := 0
  make a _ := some (.listCertificates ((a.value? "status").bind status?))

def showCertificateForm : Form where
  options := [flag "pem"]
  operands := 1
  make a _ := do
    let serial ← operand? a
    return .showCertificate serial (a.has "pem")

def revokeCertificateForm : Form where
  options := [text "by", shortFlag "yes" 'y']
  operands := 1
  make a principal := do
    let serial ← operand? a
    let revokedBy ← actor a principal
    return .revokeCertificate serial revokedBy (a.has "yes")

def renewCertificateForm : Form where
  options := [text "csr", ⟨"cert", none, .value isPath⟩, outOption]
  operands := 0
  make a _ := do
    let csr ← a.value? "csr"
    let certificate ← a.value? "cert"
    return .renewCertificate csr certificate (a.value? "out")

/-- The commands of a group, or a single command. -/
inductive Entry where
  | single (form : Form)
  | group (forms : List (String × Form))

/-- All commands by their names. -/
def entries : List (String × Entry) := [
  ("init", .single setUpForm),
  ("run", .single serveForm),
  ("ca", .group [("show", showAuthorityForm)]),
  ("token", .group [("issue", issueTokenForm), ("list", listTokensForm),
    ("export", exportTokenForm), ("prune", pruneTokensForm)]),
  ("request", .group [("submit", submitRequestForm), ("status", showRequestForm),
    ("list", listRequestsForm), ("approve", approveRequestForm), ("reject", rejectRequestForm)]),
  ("cert", .group [("list", listCertificatesForm), ("show", showCertificateForm),
    ("revoke", revokeCertificateForm), ("renew", renewCertificateForm)])]

def helpName : String := "help"

/-- Whether help for these names is help for something: for the names themselves, or for help
among them. -/
def isHelpTopic : List String → Bool
  | [] => true
  | name :: rest =>
    if name = helpName then rest.isEmpty
    else
      match entries.lookup name, rest with
      | some _, [] => true
      | some (.group forms), [inner] => inner = helpName ∨ (forms.lookup inner).isSome
      | _, _ => false

def helpOn (names : List String) : Refusal :=
  if isHelpTopic names then .help else .misuse

/-- The name of a command, with what follows it. -/
def readName (options : List OptionSpec) (arguments : List String) :
    Except Refusal (Arguments × String × List String) :=
  match readOptions options .empty arguments with
  | .error e => .error e
  | .ok (_, []) => .error .misuse
  | .ok (a, name :: rest) => if isOperand name then .ok (a, name, rest) else .error .misuse

/-- The command of a form, and the file that its arguments name. -/
def readForm (form : Form) (principal : Option String) (arguments : List String) :
    Except Refusal Invocation :=
  match readArguments (commonOptions ++ form.options) form.operands arguments with
  | .error e => .error e
  | .ok a =>
    match form.make a principal with
    | some command => .ok ⟨a.value? "config", command⟩
    | none => .error .misuse

/-- The invocation with a file that was named earlier, if none was named since. -/
def Invocation.orConfig (i : Invocation) (a : Arguments) : Invocation :=
  { i with config := i.config.orElse fun _ => a.value? "config" }

def readGroup (group : String) (forms : List (String × Form)) (principal : Option String)
    (arguments : List String) : Except Refusal Invocation :=
  match readName commonOptions arguments with
  | .error e => .error e
  | .ok (a, name, rest) =>
    match forms.lookup name with
    | some form => (readForm form principal rest).map (Invocation.orConfig · a)
    | none => if name = helpName then .error (helpOn (group :: rest)) else .error .misuse

/-- Reads a command line. -/
def read (principal : Option String) (arguments : List String) : Except Refusal Invocation :=
  match readName (versionOption :: commonOptions) arguments with
  | .error e => .error e
  | .ok (a, name, rest) =>
    match entries.lookup name with
    | some (.single form) => (readForm form principal rest).map (Invocation.orConfig · a)
    | some (.group forms) => (readGroup name forms principal rest).map (Invocation.orConfig · a)
    | none => if name = helpName then .error (helpOn rest) else .error .misuse

def OptionSpec.usage (spec : OptionSpec) : String :=
  match spec.taking with
  | .help | .nothing => "[--" ++ spec.name ++ "]"
  | .value _ => "[--" ++ spec.name ++ " <value>]"
  | .values _ => "[--" ++ spec.name ++ " <value>]..."

/-- The line of a command, which goes by one name or two. -/
def Form.usage (names : List String) (form : Form) : String :=
  " ".intercalate
    (names ++ List.replicate form.operands "<operand>" ++ form.options.map OptionSpec.usage)

def Entry.usage (name : String) : Entry → List String
  | .single form => [form.usage [name]]
  | .group forms => forms.map fun (inner, form) => form.usage [name, inner]

/-- What is shown to one who asks for help. -/
def usage : String :=
  let lines := entries.flatMap fun (name, entry) => entry.usage name
  "mwca [--config <value>] <command>\n\n" ++ String.join (lines.map fun l => "  " ++ l ++ "\n")

end CommandLine

end CertAuthority
