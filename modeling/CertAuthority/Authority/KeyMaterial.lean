import CertAuthority.Authority.Basic
import CertAuthority.Disk.AtomicWrite

/-!
# Where the authority's key and certificate are kept

Two files in one directory, which are there together or not at all.
-/

namespace CertAuthority.KeyMaterial

def keyPath (dir : String) : String :=
  Path.join dir "ca.key"

def certificatePath (dir : String) : String :=
  Path.join dir "ca.crt"

def failure {α : Type} (message : String) : Except CaError α :=
  .error (.keyMaterial message)

/-- Whether there is anything at a path, be it a link to nothing. -/
def isPresent (d : Disk) (path : String) : Except CaError Bool :=
  match d.stat path false with
  | .ok _ => .ok true
  | .error .notFound => .ok false
  | .error e => failure (path ++ ": " ++ e.message)

def readText (d : Disk) (path : String) : Except CaError String :=
  match d.readText path with
  | .ok text => .ok text
  | .error e => failure (path ++ ": " ++ e.message)

/-- The size of the keys that can be made. -/
def generatedBits : Nat := 4096

/-- Why no key is made. -/
def cannotGenerate (keyBits : Nat) : String :=
  if keyBits = generatedBits then "Failed to generate CA key"
  else
    "Unsupported CA key size " ++ toString keyBits ++
      "; the signing backend generates 4096-bit RSA"

/-- The authority whose files are in a directory.  Keys are not made here; a directory without
them is refused. -/
def load (d : Disk) (dir : String) (keyBits : Nat) : Except CaError Authority := do
  let keyPath := keyPath dir
  let certificatePath := certificatePath dir
  let hasKey ← isPresent d keyPath
  let hasCertificate ← isPresent d certificatePath
  match hasKey, hasCertificate with
  | true, true =>
    let keyPem ← readText d keyPath
    let certificatePem ← readText d certificatePath
    Authority.read keyPem certificatePem
  | true, false => failure (keyPath ++ " exists but " ++ certificatePath ++ " is missing")
  | false, true => failure (certificatePath ++ " exists but " ++ keyPath ++ " is missing")
  | false, false => failure (cannotGenerate keyBits)

end CertAuthority.KeyMaterial
