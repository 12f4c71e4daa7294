import CertAuthority.Authority.KeyMaterial
import CertAuthority.Caller.Identity
import CertAuthority.CommandLine.Command
import CertAuthority.CommandLine.Console
import CertAuthority.CommandLine.Grid
import CertAuthority.Config.Load
import CertAuthority.Service
import CertAuthority.Text.Width

/-!
# Running commands

A command opens the service that the configuration describes, asks it, and shows the result.
Commands other than the first work only with an authority that is there.
-/

namespace CertAuthority.CommandLine

open Session

/-- The mode of files for everyone. -/
def publicMode : Nat := 0o644

/-- The mode of files for their owner. -/
def secretMode : Nat := 0o600

/-- How many rounds redeeming a token may take. -/
def redeemRounds : Nat := 1000

def moment (t : Instant) : String :=
  Time.plainText t

/-! ### The service -/

def loadAuthority (c : Config) : Session Authority := do
  ofExcept (KeyMaterial.load (← disk) c.caDir c.ca.keyBits)

/-- Opens the tables that the configuration describes. -/
def openTables (c : Config) : Session Unit := do
  let tables := if c.storage.backend = "memory" then Tables.inMemory else Tables.inFiles c.storeDir
  let (opened, disk) := tables.openAll (← disk)
  modify fun s => { s with host := { s.host with tables, disk } }
  ofExcept opened

/-- The service of a configuration. -/
def startService (c : Config) : Session Service := do
  let authority ← loadAuthority c
  openTables c
  return { authority, issuance := c.issuance, tokens := c.tokens, redeemRounds }

/-- The service of an authority that is there. -/
def openService (c : Config) : Session Service := do
  let d ← disk
  let certificate := KeyMaterial.certificatePath c.caDir
  if !d.exists? (KeyMaterial.keyPath c.caDir) && !d.exists? certificate then
    throw ("CA 尚未初始化（" ++ certificate ++ " 不存在），请先运行 `mwca init`")
  during "Failed to open CA" (startService c)

/-! ### The authority -/

def showIdentity (a : Authority) : Session Unit := do
  detail "主体" a.subjectDn
  detail "SHA-256 指纹" a.fingerprint
  detail "有效期至" (moment a.notAfter)

def setUp (c : Config) : Session Unit := do
  header "初始化 CA"
  let authority ← during "CA initialization failed" (loadAuthority c)
  during "Failed to open stores" (openTables c)
  info "CA 已存在，沿用现有密钥与证书"
  showIdentity authority
  detail "私钥" (KeyMaterial.keyPath c.caDir)
  detail "证书" (KeyMaterial.certificatePath c.caDir)
  line ""
  nextStep "为 agent 签发 token: mwca token issue --cn <host>_<user>_J"

/-- Sweeps once; the service then waits to be stopped. -/
def serve (c : Config) : Session Unit := do
  let service ← during "CA startup failed" (startService c)
  let _ ← perform (Tokens.sweep (Service.hours service.tokens.pruneGraceHours))

def showAuthority (s : Service) (onlyInfo : Bool) (out : Option String) : Session Unit :=
  if onlyInfo then do
    header "CA 证书"
    showIdentity s.authority
  else output out s.certificatePem publicMode

/-! ### Tokens -/

def issueToken (s : Service) (commonName : Option String) (hours : Option Nat)
    (sources : List IpAddress) (comment createdBy : String) : Session Unit := do
  let allowed := if sources.isEmpty then none else some (AddressSet.ofList sources)
  let token ← during "Failed to issue bootstrap token"
    (perform (s.issueToken commonName hours allowed comment createdBy))
  header "Bootstrap token"
  line ("  " ++ token.tokenId.text)
  line ""
  detail "CN" (token.expectedCommonName.getD "(任意)")
  detail "过期时间" (moment token.expiresAt)
  if let some allowed := token.allowedSourceIps then
    detail "来源限制" (", ".intercalate (allowed.addresses.map IpAddress.render))
  line ""
  warning "请妥善保管 token：持有者可凭它提交一次证书申请"
  nextStep ("导出给 agent: mwca token export " ++ token.tokenId.text ++
    " --format json --out bootstrap.token")

/-- The state of a token in a word. -/
def tokenState (now : Instant) (t : BootstrapToken) : String :=
  match t.usedByCommonName with
  | some name => "used by " ++ name
  | none => if t.isExpiredAt now then "expired" else "valid"

def tokenRow (now : Instant) (t : BootstrapToken) : List String :=
  [t.tokenId.text, t.expectedCommonName.getD "-", tokenState now t, moment t.expiresAt, t.createdBy,
    t.comment]

/-- Shows a grid and how many rows it has. -/
def showGrid (titles : List String) (rows : List (List String)) (counter : String) :
    Session Unit := do
  for text in (Grid.mk titles rows).lines do
    line text
  line ("共 " ++ toString rows.length ++ " " ++ counter)

def listTokens (all : Bool) : Session Unit := do
  let tokens ← perform Tokens.list
  let now ← perform Procedure.now
  let shown := tokens.filter fun t => all || t.isValidAt now
  if shown.isEmpty then info "没有可显示的 token"
  else
    showGrid ["TOKEN", "CN", "状态", "过期时间", "创建人", "备注"] (shown.map (tokenRow now)) "个"

def exportToken (s : Service) (token : TokenId) (format : ExportFormat) (url out : Option String) :
    Session Unit := do
  let content ← perform (s.exportToken token format url)
  output out content secretMode
  if let some path := out then
    success ("已写入 " ++ path)

def pruneTokens (s : Service) : Session Unit := do
  let removed ← perform s.pruneTokens
  success ("已清理 " ++ toString removed ++ " 个过期 token")

/-! ### Requests -/

def readAgentInfo : Option String → Session Json
  | none => pure .null
  | some text =>
    match Json.readText Json.Reader.json text with
    | some v => pure v
    | none => throw "--agent-info is not valid JSON"

def submitRequest (s : Service) (csr token : String) (source : IpAddress)
    (agentInfo : Option String) : Session Unit := do
  let csrPem ← readInput csr
  let agentInfo ← readAgentInfo agentInfo
  let id ← during "Certificate request was not accepted"
    (perform (s.submit csrPem token source agentInfo))
  success ("申请已提交: " ++ id.text)
  nextStep ("等待审批: mwca request approve " ++ id.text)

def detail? (name : String) : Option String → Session Unit
  | some value => detail name value
  | none => pure ()

/-- What is shown of a decision. -/
def showDecision (r : CertificateRequest) : Session Unit :=
  match r.status with
  | .pendingApproval => pure ()
  | .approved => do
    detail? "序列号" (r.serialNumber.map (·.text))
    detail? "审批人" r.approvedBy
    detail? "有效期至" (r.expiresAt.map moment)
  | .rejected => do
    detail? "审批人" r.rejectedBy
    detail? "原因" r.rejectReason

def showDetails (r : CertificateRequest) : Session Unit := do
  detail "状态" r.status.text
  detail "CN" r.subject.commonName
  detail? "OU" r.subject.organizationalUnit
  detail "来源" r.sourceIp.render
  detail "提交时间" (moment r.submittedAt)
  showDecision r
  match r.agentInfo with
  | .null => pure ()
  | v => detail "agent" (Json.toText v)

/-- Writes the certificates of an approved request to a directory. -/
def writeCertificates (view : RequestView) (directory : String) : Session Unit :=
  match view.certificatePem, view.caCertificatePem with
  | some certificate, some authority => do
    makeDirectories directory
    writeFile (Path.join directory "client.crt") certificate publicMode
    writeFile (Path.join directory "ca.crt") authority publicMode
    success ("证书已写入 " ++ directory)
  | _, _ => info ("申请状态为 " ++ view.status.text ++ "，没有可写出的证书")

def showRequest (s : Service) (id : RequestId) (outDirectory : Option String) (asJson : Bool) :
    Session Unit := do
  let view ← perform (s.requestStatus id)
  if asJson then line (Json.toPrettyText (Json.Codec.write view))
  else
    let request ← perform (Ledger.get id)
    header ("申请 " ++ id.text)
    showDetails request
  if let some directory := outDirectory then
    writeCertificates view directory

/-- How much of what describes an agent is shown in a list. -/
def agentInfoWidth : Nat := 40

def requestRow (r : CertificateRequest) : List String :=
  [r.requestId.text, r.subject.commonName, r.status.text, r.sourceIp.render, moment r.submittedAt,
    Text.truncate (Json.toText r.agentInfo) agentInfoWidth]

def listRequests (onlyPending : Bool) : Session Unit := do
  let requests ← perform (if onlyPending then Ledger.listPending else Ledger.list)
  if requests.isEmpty then info (if onlyPending then "没有待审批的申请" else "没有证书申请")
  else
    showGrid ["REQUEST ID", "CN", "状态", "来源", "提交时间", "agent"] (requests.map requestRow) "个"

def approveRequest (s : Service) (id : RequestId) (days : Option Nat) (comment approver : String) :
    Session Unit := do
  let issued ← during ("Failed to approve " ++ id.text)
    (perform (s.approve id approver days comment))
  success ("已批准 " ++ id.text)
  detail "CN" issued.subjectCommonName
  detail "序列号" issued.serialNumber.text
  detail "有效期至" (moment issued.expiresAt)

def rejectRequest (s : Service) (id : RequestId) (reason rejecter : String) : Session Unit := do
  during ("Failed to reject " ++ id.text) (perform (s.reject id rejecter reason))
  success ("已拒绝 " ++ id.text)

/-! ### Certificates -/

def certificateRow (c : CertificateSummary) : List String :=
  [c.serialNumber.text, c.subjectCommonName, c.status.text, moment c.issuedAt, moment c.expiresAt,
    c.issuer.text]

def listCertificates (status : Option CertificateStatus) : Session Unit := do
  let certificates ← perform (Registry.list status)
  if certificates.isEmpty then info "没有符合条件的证书"
  else
    showGrid ["序列号", "CN", "状态", "签发时间", "到期时间", "来源"]
      (certificates.map certificateRow) "张"

def showRevocation (r : Revocation) : Session Unit := do
  detail "吊销时间" (moment r.revokedAt)
  detail "吊销人" r.revokedBy

def showCertificate (serial : String) (onlyPem : Bool) : Session Unit := do
  let serial ← ofExcept (SerialNumber.parse serial)
  let certificate ← perform (Registry.get serial)
  if onlyPem then output none certificate.certificatePem publicMode
  else
    let status ← perform (Registry.status serial)
    header ("证书 " ++ serial.text)
    detail "状态" status.text
    detail "主体" certificate.subjectDn
    detail "SHA-256 指纹" certificate.fingerprintSha256
    detail "签发时间" (moment certificate.issuedAt)
    detail "到期时间" (moment certificate.expiresAt)
    detail "来源" certificate.issuer.text
    if let some revocation ← perform (Registry.revocation serial) then
      showRevocation revocation

def revokeCertificate (s : Service) (serial revokedBy : String) (confirmed : Bool) :
    Session Unit := do
  let serial ← ofExcept (SerialNumber.parse serial)
  let certificate ← perform (Registry.get serial)
  let shown := serial.text ++ " (" ++ certificate.subjectCommonName ++ ")"
  let confirmed ← if confirmed then pure true else confirm ("确认吊销 " ++ shown ++ "？此操作不可撤销")
  if confirmed then
    let revocation ← during ("Failed to revoke " ++ serial.text)
      (perform (s.revoke serial revokedBy))
    success ("已吊销 " ++ shown)
    showRevocation revocation
  else warning "已取消"

def renewCertificate (s : Service) (csr certificate : String) (out : Option String) :
    Session Unit := do
  let csrPem ← readInput csr
  let presented ← readFile certificate
  let now ← perform Procedure.now
  let caller ← during "Presented certificate was not issued by this CA"
    (ofExcept (CallerIdentity.ofClientCertificate presented s.authority.certificateDer now))
  let issued ← during ("Renewal for " ++ caller.commonName ++ " failed")
    (perform (s.renew csrPem caller))
  output out issued.certificatePem publicMode
  if out.isSome then
    success ("已换发 " ++ issued.subjectCommonName ++ "，序列号 " ++ issued.serialNumber.text)

/-! ### All commands -/

/-- Runs a command under a configuration. -/
def runCommand (c : Config) : Command → Session Unit
  | .setUp => setUp c
  | .serve => serve c
  | .showAuthority onlyInfo out => do showAuthority (← openService c) onlyInfo out
  | .issueToken commonName hours sources comment createdBy => do
    issueToken (← openService c) commonName hours sources comment createdBy
  | .listTokens all => do
    let _ ← openService c
    listTokens all
  | .exportToken token format url out => do exportToken (← openService c) token format url out
  | .pruneTokens => do pruneTokens (← openService c)
  | .submitRequest csr token source agentInfo => do
    submitRequest (← openService c) csr token source agentInfo
  | .showRequest id outDirectory asJson => do showRequest (← openService c) id outDirectory asJson
  | .listRequests onlyPending => do
    let _ ← openService c
    listRequests onlyPending
  | .approveRequest id days comment approver => do
    approveRequest (← openService c) id days comment approver
  | .rejectRequest id reason rejecter => do rejectRequest (← openService c) id reason rejecter
  | .listCertificates status => do
    let _ ← openService c
    listCertificates status
  | .showCertificate serial onlyPem => do
    let _ ← openService c
    showCertificate serial onlyPem
  | .revokeCertificate serial revokedBy confirmed => do
    revokeCertificate (← openService c) serial revokedBy confirmed
  | .renewCertificate csr certificate out => do
    renewCertificate (← openService c) csr certificate out

/-- How the program ends. -/
inductive Ending where
  | done
  | refused (r : Refusal)
  | unconfigured (e : ConfigError)
  | failed (message : String)

def Ending.exitCode : Ending → Nat
  | .done | .refused .help => 0
  | .refused .misuse => 2
  | .unconfigured _ | .failed _ => 1

/-- Runs the program with variables of the environment and arguments. -/
def execute (environment : List (String × String)) (arguments : List String) (c : Console) :
    Ending × Console :=
  match read (environment.lookup principalVariable) arguments with
  | .error r => (.refused r, c)
  | .ok invocation =>
    match Config.load c.host.disk environment invocation.config with
    | .error e => (.unconfigured e, c)
    | .ok config =>
      match (runCommand config invocation.command).run c with
      | (.ok (), c) => (.done, c)
      | (.error message, c) => (.failed message, c)

end CertAuthority.CommandLine
