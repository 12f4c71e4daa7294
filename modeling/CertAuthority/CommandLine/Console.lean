import CertAuthority.Host

/-!
# The console of a command

A command works on a host, reads the standard input and shows text.  It ends with a value or with
the message of what went wrong; what was shown before stays shown.
-/

namespace CertAuthority

structure Console where
  host : Host
  /-- The standard input. -/
  input : String
  /-- What has been shown so far. -/
  shown : String

abbrev Session := ExceptT String (StateM Console)

namespace Session

variable {α : Type}

def run (s : Session α) (c : Console) : Except String α × Console :=
  StateT.run (ExceptT.run s) c

def print (text : String) : Session Unit :=
  modify fun c => { c with shown := c.shown ++ text }

def line (text : String) : Session Unit :=
  print (text ++ "\n")

/-- Puts before a message what was being done. -/
def during (activity : String) (s : Session α) : Session α :=
  tryCatch s fun message => throw (activity ++ ": " ++ message)

def ofExcept : Except CaError α → Session α
  | .ok a => pure a
  | .error e => throw e.message

def ofIo : Except IoError α → Session α
  | .ok a => pure a
  | .error e => throw e.message

/-- The message of a failure. -/
def failureMessage : Failure → String
  | .error e => e.message
  | .calendar => "the time is out of range"
  | .unfinished => "too many rounds"

/-- Runs a procedure on the host. -/
def perform (p : Procedure α) : Session α := do
  let c ← get
  let (result, host) := p.run Host.reply c.host
  set { c with host }
  match result with
  | .ok a => pure a
  | .error f => throw (failureMessage f)

def disk : Session Disk := do
  return (← get).host.disk

/-- Changes the files of the host. -/
def setDisk (d : Disk) : Session Unit :=
  modify fun c => { c with host := { c.host with disk := d } }

def readFile (path : String) : Session String := do
  during ("Failed to read " ++ path) (ofIo ((← disk).readText path))

/-- The text of a file, or the standard input in the place of a hyphen. -/
def readInput (path : String) : Session String := do
  if path = "-" then return (← get).input else readFile path

def writeFile (path content : String) (mode : Nat) : Session Unit := do
  let c ← get
  let (written, host) := c.host.writeFile path content mode
  set { c with host }
  ofExcept written

def makeDirectories (path : String) : Session Unit := do
  setDisk (← during ("Failed to create " ++ path) (ofIo ((← disk).makeDirectories path)))

/-- Writes a file, or shows the text if there is none. -/
def output (path : Option String) (content : String) (mode : Nat) : Session Unit :=
  match path with
  | some path => during ("Failed to write " ++ path) (writeFile path content mode)
  | none => print (if content.toList.getLast? = some '\n' then content else content ++ "\n")

/-! ### Forms of what is shown -/

def header (title : String) : Session Unit := do
  line ""
  line ("⚡ " ++ title)
  line ""

def success (message : String) : Session Unit :=
  line ("  ✔ " ++ message)

def warning (message : String) : Session Unit :=
  line ("  ⚠ " ++ message)

def info (message : String) : Session Unit :=
  line ("  ℹ " ++ message)

def nextStep (message : String) : Session Unit :=
  line ("  ➜ " ++ message)

def detail (name value : String) : Session Unit :=
  line ("    " ++ name ++ ": " ++ value)

/-- Asks for consent; without a terminal nobody gives it. -/
def confirm (question : String) : Session Bool := do
  line ""
  warning question
  print "  ➜ (y/N): "
  return false

end Session

end CertAuthority
