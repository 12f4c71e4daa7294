import CertAuthority.Disk.Basic
import CertAuthority.Error

/-!
# Writing a file in one step

A file is written under a name of its own in the same directory and then moved to its place, so
that a reader finds the old content or the new, never a part.  A link is not written through.
The system may refuse any step; what a step did before it was refused stays.
-/

namespace CertAuthority.AtomicWrite

/-- A step at which the system may refuse. -/
inductive Step where
  | inspect
  | create
  | setMode
  /-- Refused after this many bytes. -/
  | write (written : Nat)
  | sync
  | rename
  deriving Repr, DecidableEq

/-- The step that is refused beyond what the files themselves forbid, and the reason given. -/
structure Refusal where
  step : Step
  reason : IoError
  deriving Repr, DecidableEq

/-- An error about a path. -/
def pathError (path : String) (e : IoError) : CaError :=
  .storage (path ++ ": " ++ e.message)

/-- The name under which the new content is written first. -/
def temporaryName (name : String) (nonce : Nat) : String :=
  "." ++ name ++ "." ++ toString nonce ++ ".tmp"

def refusedAt (refusal : Option Refusal) (step : Step) : Option IoError :=
  match refusal with
  | some r => if r.step = step then some r.reason else none
  | none => none

/-- The bytes after which writing is refused. -/
def refusedWrite (refusal : Option Refusal) : Option (Nat × IoError) :=
  match refusal with
  | some ⟨.write n, reason⟩ => some (n, reason)
  | _ => none

/-- Moves the finished file to its place, or removes it. -/
def finish (refusal : Option Refusal) (d : Disk) (place : Place) (temporary path : String) :
    Except CaError Unit × Disk :=
  let moved : Except IoError Disk := match refusedAt refusal .rename with
    | some e => .error e
    | none => d.rename place path
  match moved with
  | .ok d => (.ok (), d)
  | .error e =>
    (.error (.storage ("Failed to rename " ++ temporary ++ " -> " ++ path ++ ": " ++ e.message)),
      d.erase place)

/-- Fills the new file and moves it. -/
def fill (refusal : Option Refusal) (d : Disk) (place : Place) (temporary path : String)
    (content : Bytes) (mode : Nat) : Except CaError Unit × Disk :=
  match refusedAt refusal .setMode with
  | some e => (.error (pathError temporary e), d)
  | none =>
    let d := d.put place (.file [] mode)
    match refusedWrite refusal with
    | some (n, e) => (.error (pathError temporary e), d.put place (.file (content.take n) mode))
    | none =>
      let d := d.put place (.file content mode)
      match refusedAt refusal .sync with
      | some e => (.error (pathError temporary e), d)
      | none => finish refusal d place temporary path

/-- Whether the path is a link, as far as that can be found out. -/
def isKnownLink (refusal : Option Refusal) (d : Disk) (path : String) : Bool :=
  (refusedAt refusal .inspect).isNone && d.isLink path

def refuseLink (path : String) : CaError :=
  .storage ("Refuse to write to symlink: " ++ path)

/-- Writes the content of a file in one step. -/
def write (refusal : Option Refusal) (nonce : Nat) (d : Disk) (path : String) (content : Bytes)
    (mode : Nat) : Except CaError Unit × Disk :=
  if isKnownLink refusal d path then (.error (refuseLink path), d)
  else
    match Path.parent? path, Path.fileName? path with
    | none, _ => (.error (.storage ("Missing parent dir for " ++ path)), d)
    | some _, none => (.error (.storage ("Invalid filename for " ++ path)), d)
    | some parent, some name =>
      let temporary := Path.join parent (temporaryName name nonce)
      if isKnownLink refusal d temporary then (.error (refuseLink temporary), d)
      else
        match refusedAt refusal .create with
        | some e => (.error (pathError temporary e), d)
        | none =>
          match d.createNew temporary mode with
          | .error e => (.error (pathError temporary e), d)
          | .ok (place, d) => fill refusal d place temporary path content mode

end CertAuthority.AtomicWrite
