import CertAuthority.Authority.KeyMaterial
import CertAuthority.CommandLine.Command
import CertAuthority.Config.Load
import CertAuthority.Store.Table

/-!
# What a command can reach

The paths that a command may read or write.  All other files are out of its reach, so that a
command can be run on these alone.
-/

namespace CertAuthority

/-- The file that is read for a configuration. -/
def Config.source (named : Option String) : String :=
  named.getD defaultFile

/-- The tables of a configuration. -/
def Config.tableFiles (c : Config) : List FileTable :=
  TableName.all.map (Tables.fileOf c.storeDir)

/-- What every command under a configuration may use. -/
def Config.reach (c : Config) : List String :=
  [KeyMaterial.keyPath c.caDir, KeyMaterial.certificatePath c.caDir, c.storeDir] ++
    c.tableFiles.flatMap fun t => [t.path, t.lockPath]

/-- What a command names itself. -/
def Command.reach : Command → List String
  | .showAuthority _ out => out.toList
  | .exportToken _ _ _ out => out.toList
  | .submitRequest csr _ _ _ => [csr]
  | .showRequest _ none _ => []
  | .showRequest _ (some directory) _ =>
    [directory, Path.join directory "client.crt", Path.join directory "ca.crt"]
  | .renewCertificate csr certificate out => csr :: certificate :: out.toList
  | _ => []

/-- Whether a command reads the standard input. -/
def Command.readsInput : Command → Bool
  | .submitRequest csr _ _ _ => csr = "-"
  | .renewCertificate csr _ _ => csr = "-"
  | _ => false

end CertAuthority
