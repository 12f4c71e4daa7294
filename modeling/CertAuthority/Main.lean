import CertAuthority.CommandLine.Reach
import CertAuthority.CommandLine.Run
import CertAuthority.Crypto.Sha
import Std.Time.DateTime.Timestamp

/-!
# The program

A command is run on a copy of the files in its reach.  What it changed is then written back, file
by file, each in one step.  The tables are locked from the copying to the writing.
-/

namespace CertAuthority.Program

/-- A place as a path. -/
def pathOf (place : Place) : String :=
  "/" ++ "/".intercalate place

/-- The variables of the environment. -/
def readEnvironment : IO (List (String × String)) := do
  let content ← IO.FS.readBinFile "/proc/self/environ"
  let some text := Bytes.toString? content.toList | return []
  return (text.splitOn "\x00").filterMap fun entry =>
    match entry.splitOn "=" with
    | name :: value :: more => some (name, "=".intercalate (value :: more))
    | _ => none

def currentTime : IO Instant := do
  let nanos := (← Std.Time.Timestamp.now).toNanosecondsSinceUnixEpoch.val
  let perSecond : Int := Instant.nanosPerSecond
  return ⟨nanos / perSecond, (nanos % perSecond).toNat⟩

/-- As many bytes as are asked for from a seed, others for every number. -/
def expand (seed : Bytes) (number count : Nat) : Bytes :=
  let block (n : Nat) : Bytes := Sha2.sha256 (seed ++ Bytes.ofNat 8 number ++ Bytes.ofNat 8 n)
  ((List.range (count / 32 + 1)).flatMap block).take count

/-! ### Reading files -/

/-- What is at a place whose directory no link leads to. -/
def look (place : Place) : IO (Option Node) := do
  let path := pathOf place
  try
    let real := (← IO.FS.realPath path).toString
    if real ≠ path then return some (.link real)
    return some (.file (← IO.FS.readBinFile path).toList CommandLine.publicMode)
  catch
    | .inappropriateType .. => return some .directory
    | .permissionDenied .. => return some (.file [] 0)
    | _ => return none

/-- Adds the directories that lead to a place, and the place as one of them. -/
def withDirectories (d : Disk) (place : Place) : Disk :=
  (List.range place.length).foldl (fun d n => d.put (place.take (n + 1)) .directory) d

/-- Adds what lies on a path from a directory on. -/
def follow (d : Disk) (place : Place) : List String → IO Disk
  | [] => return d
  | "." :: names => follow d place names
  | ".." :: names => follow d place.dropLast names
  | name :: names => do
    let place := place ++ [name]
    match ← look place with
    | none => return d
    | some (.link path) =>
      let target := Path.names path
      let d := withDirectories (d.put place (.link path)) target.dropLast
      match ← look target with
      | none => return d
      | some node => follow (d.put target node) target names
    | some node => follow (d.put place node) place names

def copyPath (d : Disk) (path : String) : IO Disk :=
  follow d (if Path.isAbsolute path then [] else d.here) (Path.names path)

def copyPaths (d : Disk) (paths : List String) : IO Disk :=
  paths.foldlM copyPath d

/-- The directory of the running program alone. -/
def startDisk : IO Disk := do
  let here := Path.names (← IO.currentDir).toString
  return withDirectories ⟨[], here⟩ here

/-! ### Writing files -/

def accessOf (bits : Nat) : IO.AccessRight :=
  ⟨bits / 4 % 2 = 1, bits / 2 % 2 = 1, bits % 2 = 1⟩

def rightsOf (mode : Nat) : IO.FileRight :=
  ⟨accessOf (mode / 64), accessOf (mode / 8), accessOf mode⟩

/-- Writes a file under another name and moves it to its place. -/
def replaceFile (place : Place) (content : Bytes) (mode nonce : Nat) : IO Unit := do
  let name := place.getLast?.getD ""
  let temporary := pathOf (place.dropLast ++ [AtomicWrite.temporaryName name nonce])
  try
    let handle ← IO.FS.Handle.mk temporary .writeNew
    IO.setAccessRights temporary (rightsOf mode)
    handle.write ⟨content.toArray⟩
    handle.flush
    IO.FS.rename temporary (pathOf place)
  catch e =>
    try IO.FS.removeFile temporary catch _ => pure ()
    throw e

/-- Writes what a command changed, the earlier change first. -/
def writeBack (before after : Disk) (nonce : Nat) : IO Unit := do
  for (place, node) in after.entries.reverse do
    if before.node? place ≠ some node then
      match node with
      | .directory => IO.FS.createDirAll (pathOf place)
      | .file content mode => replaceFile place content mode nonce
      | .link _ => pure ()

/-! ### Running commands -/

/-- Takes the locks that are there. -/
def lockTables (c : Config) : IO (List IO.FS.Handle) :=
  c.tableFiles.filterMapM fun t => do
    try
      let handle ← IO.FS.Handle.mk t.lockPath .readWrite
      handle.lock
      return some handle
    catch _ => return none

def hostOn (d : Disk) : IO Host := do
  let now ← currentTime
  let seed := (← IO.getRandomBytes 32).toList
  return { disk := d, tables := .inMemory, count := 0, clock := fun _ => now, entropy := expand seed }

/-- Runs a command on the files in its reach. -/
def runOn (environment : List (String × String)) (arguments : List String) (reach : List String)
    (input : String) : IO (CommandLine.Ending × String) := do
  let before ← copyPaths (← startDisk) reach
  let host ← hostOn before
  let (ending, console) := CommandLine.execute environment arguments ⟨host, input, ""⟩
  writeBack before console.host.disk host.nonce
  return (ending, console.shown)

def report : CommandLine.Ending → IO Unit
  | .done => return ()
  | .refused .help => IO.print CommandLine.usage
  | .refused .misuse => IO.eprint CommandLine.usage
  | .unconfigured e => do
    IO.eprintln "Error: 无法加载 mwca.toml 配置文件，请检查文件是否存在或路径是否正确。"
    IO.eprintln ("\nCaused by:\n    " ++ e.message)
  | .failed message => IO.eprintln ("错误: " ++ message)

/-- Runs a command under its configuration and shows what it shows. -/
def runOnce (environment : List (String × String)) (arguments : List String)
    (invocation : Invocation) : IO CommandLine.Ending := do
  let source := Config.source invocation.config
  match Config.load (← copyPath (← startDisk) source) environment invocation.config with
  | .error e => return .unconfigured e
  | .ok c =>
    let input ← if invocation.command.readsInput then (← IO.getStdin).readToEnd else pure ""
    let locks ← lockTables c
    let reach := source :: c.reach ++ invocation.command.reach
    let (ending, shown) ← runOn environment arguments reach input
    for handle in locks do
      handle.unlock
    IO.print shown
    return ending

/-- Runs a command again and again; only the program's own end ends it. -/
partial def repeatedly (pause : UInt32) (act : IO CommandLine.Ending) : IO Unit := do
  IO.sleep pause
  let _ ← act
  repeatedly pause act

/-- The longest time to wait in milliseconds. -/
def maxPause : Nat := Nat.pow 2 32 - 1

/-- How long to wait between two sweeps in milliseconds. -/
def sweepPause (environment : List (String × String)) (invocation : Invocation) : IO UInt32 := do
  let d ← copyPath (← startDisk) (Config.source invocation.config)
  match Config.load d environment invocation.config with
  | .ok c => return (min (c.tokens.sweepIntervalSec * 1000) maxPause).toUInt32
  | .error _ => return (Config.minSweepInterval * 1000).toUInt32

def run (arguments : List String) : IO CommandLine.Ending := do
  let environment ← readEnvironment
  match CommandLine.read (environment.lookup CommandLine.principalVariable) arguments with
  | .error refusal => return .refused refusal
  | .ok invocation =>
    let ending ← runOnce environment arguments invocation
    if let (.serve, .done) := (invocation.command, ending) then
      repeatedly (← sweepPause environment invocation) (runOnce environment arguments invocation)
    return ending

end CertAuthority.Program

/-- Runs the command on the command line. -/
def main (arguments : List String) : IO UInt32 := do
  let ending ← CertAuthority.Program.run arguments
  CertAuthority.Program.report ending
  return ending.exitCode.toUInt32
