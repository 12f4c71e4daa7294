import CertAuthority.Bytes.Basic
import CertAuthority.Disk.Path

/-!
# A tree of files

Files, directories and links by their place, which is the list of names that lead there from the
root.  Paths are followed name by name; a link that is not the last name, or is followed, leads
on to its target.
-/

namespace CertAuthority

/-- Why the system refuses an operation on files. -/
inductive IoError where
  | notFound
  | permissionDenied
  | busy
  | exists
  | notDirectory
  | isDirectory
  | nameTooLong
  | tooManyLinks
  | nulInName
  | noSpace
  | notText
  deriving Repr, DecidableEq

def IoError.message : IoError → String
  | .notFound => "No such file or directory (os error 2)"
  | .permissionDenied => "Permission denied (os error 13)"
  | .busy => "Device or resource busy (os error 16)"
  | .exists => "File exists (os error 17)"
  | .notDirectory => "Not a directory (os error 20)"
  | .isDirectory => "Is a directory (os error 21)"
  | .noSpace => "No space left on device (os error 28)"
  | .nameTooLong => "File name too long (os error 36)"
  | .tooManyLinks => "Too many levels of symbolic links (os error 40)"
  | .nulInName => "file name contained an unexpected NUL byte"
  | .notText => "stream did not contain valid UTF-8"

inductive Node where
  | file (content : Bytes) (mode : Nat)
  | directory
  | link (target : String)
  deriving Repr, DecidableEq, Inhabited

abbrev Place := List String

structure Disk where
  entries : List (Place × Node)
  /-- The directory from which relative paths lead. -/
  here : Place
  deriving Repr, DecidableEq, Inhabited

namespace Disk

/-- What is at a place; the root is a directory. -/
def node? (d : Disk) (place : Place) : Option Node :=
  if place.isEmpty then some .directory
  else (d.entries.find? (·.1 = place)).map (·.2)

def put (d : Disk) (place : Place) (node : Node) : Disk :=
  { d with entries := (place, node) :: d.entries.filter (·.1 ≠ place) }

def erase (d : Disk) (place : Place) : Disk :=
  { d with entries := d.entries.filter (·.1 ≠ place) }

/-- The most links that one path may lead through. -/
def maxLinks : Nat := 40

/-- The longest name in bytes. -/
def maxName : Nat := 255

/-- The place that names lead to from a directory.  The last name need not exist, and if it is a
link it is followed only on demand. -/
def walk (d : Disk) (follow : Bool) (links : Nat) (place : Place) (names : List String) :
    Except IoError Place :=
  match names with
  | [] => .ok place
  | name :: rest =>
    if name = "." then walk d follow links place rest
    else if name = ".." then walk d follow links place.dropLast rest
    else if maxName < name.utf8ByteSize then .error .nameTooLong
    else
      let next := place ++ [name]
      match d.node? next with
      | none => if rest.isEmpty then .ok next else .error .notFound
      | some .directory => walk d follow links next rest
      | some (.file _ _) => if rest.isEmpty then .ok next else .error .notDirectory
      | some (.link target) =>
        if rest.isEmpty ∧ !follow then .ok next
        else
          match links with
          | 0 => .error .tooManyLinks
          | links + 1 =>
            if target = "" then .error .notFound
            else
              walk d follow links (if Path.isAbsolute target then [] else place)
                (Path.names target ++ rest)
termination_by (links, names.length)

/-- The place that a path leads to. -/
def resolve (d : Disk) (path : String) (follow : Bool) : Except IoError Place :=
  if path.toList.contains '\x00' then .error .nulInName
  else if path = "" then .error .notFound
  else if 4096 ≤ path.utf8ByteSize then .error .nameTooLong
  else d.walk follow maxLinks (if Path.isAbsolute path then [] else d.here) (Path.names path)

/-- What a path leads to. -/
def stat (d : Disk) (path : String) (follow : Bool) : Except IoError Node :=
  match d.resolve path follow with
  | .error e => .error e
  | .ok place =>
    match d.node? place with
    | some node => .ok node
    | none => .error .notFound

def exists? (d : Disk) (path : String) : Bool :=
  match d.stat path true with
  | .ok _ => true
  | .error _ => false

/-- Whether the path itself is a link. -/
def isLink (d : Disk) (path : String) : Bool :=
  match d.stat path false with
  | .ok (.link _) => true
  | _ => false

def isDirectory (d : Disk) (path : String) : Bool :=
  match d.stat path true with
  | .ok .directory => true
  | _ => false

/-- Whether a file's owner may read it. -/
def isReadable (mode : Nat) : Bool :=
  mode / 256 % 2 = 1

def isWritable (mode : Nat) : Bool :=
  mode / 128 % 2 = 1

/-- The content of a file. -/
def read (d : Disk) (path : String) : Except IoError Bytes :=
  match d.stat path true with
  | .error e => .error e
  | .ok (.file content mode) => if isReadable mode then .ok content else .error .permissionDenied
  | .ok _ => .error .isDirectory

def readText (d : Disk) (path : String) : Except IoError String :=
  match d.read path with
  | .error e => .error e
  | .ok content =>
    match Bytes.toString? content with
    | some text => .ok text
    | none => .error .notText

/-- Makes a new, empty file; nothing may be there, not even a link. -/
def createNew (d : Disk) (path : String) (mode : Nat) : Except IoError (Place × Disk) :=
  match d.resolve path false with
  | .error e => .error e
  | .ok place =>
    match d.node? place with
    | some _ => .error .exists
    | none => .ok (place, d.put place (.file [] mode))

/-- The mode of a file for which none is asked. -/
def defaultMode : Nat := 0o644

/-- Opens a file for reading and writing, and makes it if it is absent. -/
def openOrCreate (d : Disk) (path : String) : Except IoError Disk :=
  match d.resolve path true with
  | .error e => .error e
  | .ok place =>
    match d.node? place with
    | none => .ok (d.put place (.file [] defaultMode))
    | some (.file _ mode) =>
      if isReadable mode ∧ isWritable mode then .ok d else .error .permissionDenied
    | some _ => .error .isDirectory

/-- Writes a whole file, which keeps its mode if it is there. -/
def write (d : Disk) (path : String) (content : Bytes) : Except IoError Disk :=
  match d.resolve path true with
  | .error e => .error e
  | .ok place =>
    match d.node? place with
    | none => .ok (d.put place (.file content defaultMode))
    | some (.file _ mode) =>
      if isWritable mode then .ok (d.put place (.file content mode)) else .error .permissionDenied
    | some _ => .error .isDirectory

def symlink (d : Disk) (path target : String) : Except IoError Disk :=
  match d.resolve path false with
  | .error e => .error e
  | .ok place =>
    match d.node? place with
    | some _ => .error .exists
    | none => .ok (d.put place (.link target))

/-- The path without slashes at its end. -/
def withoutEnd (path : String) : String :=
  match (path.toList.reverse.dropWhile (· = '/')).reverse with
  | [] => path
  | kept => String.ofList kept

def makeDirectory (d : Disk) (path : String) : Except IoError Disk :=
  match d.resolve (withoutEnd path) false with
  | .error e => .error e
  | .ok place =>
    match d.node? place with
    | some _ => .error .exists
    | none => .ok (d.put place .directory)

/-- Makes a directory and those above it, as far as they are absent.  The fuel bounds the
number of names in the path. -/
def makeDirectoriesFrom (fuel : Nat) (d : Disk) (path : String) : Except IoError Disk :=
  if path = "" then .ok d
  else
    match d.makeDirectory path with
    | .ok d => .ok d
    | .error e =>
      if e ≠ .notFound then if d.isDirectory path then .ok d else .error e
      else
        match fuel, Path.parent? path with
        | fuel + 1, some parent =>
          match makeDirectoriesFrom fuel d parent with
          | .error e => .error e
          | .ok d =>
            match d.makeDirectory path with
            | .ok d => .ok d
            | .error e => if d.isDirectory path then .ok d else .error e
        | _, _ => .error e

def makeDirectories (d : Disk) (path : String) : Except IoError Disk :=
  makeDirectoriesFrom path.length d path

/-- Moves the file at a place to a path, over a file that is there. -/
def rename (d : Disk) (source : Place) (path : String) : Except IoError Disk :=
  let parts := (Path.splitSlashes path.toList).filter (· ≠ [])
  match parts.getLast? with
  | none => .error .busy
  | some last =>
    let base := if Path.isAbsolute path then [] else d.here
    match d.walk true maxLinks base (parts.dropLast.map String.ofList) with
    | .error e => .error e
    | .ok directory =>
      if d.node? directory ≠ some .directory then
        .error (if (d.node? directory).isNone then .notFound else .notDirectory)
      else if last = ['.'] ∨ last = ['.', '.'] then .error .busy
      else if path.toList.getLast? = some '/' then .error .notDirectory
      else
        let target := directory ++ [String.ofList last]
        match d.node? source, d.node? target with
        | none, _ => .error .notFound
        | _, some .directory => .error .isDirectory
        | some node, _ => .ok ((d.erase source).put target node)

/-- What lies below a place, by path from there, in ascending order. -/
def below (d : Disk) (place : Place) : List (String × Node) :=
  let found := d.entries.filterMap fun (p, node) =>
    if place.isPrefixOf p ∧ p ≠ place then
      some ("/".intercalate (p.drop place.length), node)
    else none
  found.mergeSort fun a b => a.1 ≤ b.1

end Disk

end CertAuthority
