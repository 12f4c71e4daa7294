import CertAuthority.Asn1.Element
import CertAuthority.Asn1.Oid
import CertAuthority.Asn1.Writer
import CertAuthority.Authority.Basic
import CertAuthority.Authority.Issuance
import CertAuthority.Authority.KeyMaterial
import CertAuthority.Bytes.Base64
import CertAuthority.Bytes.Basic
import CertAuthority.Bytes.Hex
import CertAuthority.Caller.Identity
import CertAuthority.Certificate.Audit
import CertAuthority.Certificate.Basic
import CertAuthority.Certificate.Json
import CertAuthority.Certificate.Registry
import CertAuthority.Certificate.Renewal
import CertAuthority.CommandLine.Arguments
import CertAuthority.CommandLine.Command
import CertAuthority.CommandLine.Console
import CertAuthority.CommandLine.Grid
import CertAuthority.CommandLine.Reach
import CertAuthority.CommandLine.Run
import CertAuthority.Config.Basic
import CertAuthority.Config.Environment
import CertAuthority.Config.Json
import CertAuthority.Config.Load
import CertAuthority.Crypto.Curve
import CertAuthority.Crypto.Edwards
import CertAuthority.Crypto.Hash
import CertAuthority.Crypto.Modular
import CertAuthority.Crypto.Rsa
import CertAuthority.Crypto.Sha
import CertAuthority.Csr.Candidate
import CertAuthority.Csr.Generated
import CertAuthority.Csr.Validated
import CertAuthority.Decimal.Shortest
import CertAuthority.Disk.AtomicWrite
import CertAuthority.Disk.Basic
import CertAuthority.Disk.Path
import CertAuthority.Error
import CertAuthority.Error.Json
import CertAuthority.Host
import CertAuthority.Identifier
import CertAuthority.Json.Basic
import CertAuthority.Json.Codec
import CertAuthority.Json.Number
import CertAuthority.Json.Printer
import CertAuthority.Json.Reader
import CertAuthority.Json.Tree
import CertAuthority.Log
import CertAuthority.Main
import CertAuthority.Net.Address
import CertAuthority.Net.AddressSet
import CertAuthority.Pem
import CertAuthority.Procedure
import CertAuthority.Proofs.Asn1.Element
import CertAuthority.Proofs.Authority.Acceptance
import CertAuthority.Proofs.Authority.Chain
import CertAuthority.Proofs.Authority.Key
import CertAuthority.Proofs.Authority.Lifetime
import CertAuthority.Proofs.Authority.Naming
import CertAuthority.Proofs.Authority.Presentation
import CertAuthority.Proofs.Authority.Profile
import CertAuthority.Proofs.Authority.Requested
import CertAuthority.Proofs.Authority.SerialNumber
import CertAuthority.Proofs.Authority.Written
import CertAuthority.Proofs.Bytes.Utf8
import CertAuthority.Proofs.Caller.ForwardedName
import CertAuthority.Proofs.Caller.Unescaping
import CertAuthority.Proofs.Certificate.Conduct
import CertAuthority.Proofs.Certificate.Listing
import CertAuthority.Proofs.Certificate.Permanence
import CertAuthority.Proofs.Certificate.Register
import CertAuthority.Proofs.Certificate.SerialNumber
import CertAuthority.Proofs.Csr.Checks
import CertAuthority.Proofs.Decimal.Digits
import CertAuthority.Proofs.Disk.Acceptance
import CertAuthority.Proofs.Disk.AtomicWrite
import CertAuthority.Proofs.Disk.Beside
import CertAuthority.Proofs.Disk.Parent
import CertAuthority.Proofs.Disk.Stands
import CertAuthority.Proofs.Disk.Walk
import CertAuthority.Proofs.Json.Fields
import CertAuthority.Proofs.Json.Number
import CertAuthority.Proofs.Json.Parse
import CertAuthority.Proofs.Json.Record
import CertAuthority.Proofs.Json.Text
import CertAuthority.Proofs.Json.Value
import CertAuthority.Proofs.Net.Address
import CertAuthority.Proofs.Office.Basic
import CertAuthority.Proofs.Office.Calls
import CertAuthority.Proofs.Office.Conduct
import CertAuthority.Proofs.Office.Course
import CertAuthority.Proofs.Office.Effects
import CertAuthority.Proofs.Office.Fault
import CertAuthority.Proofs.Office.Hosted
import CertAuthority.Proofs.Office.Opening
import CertAuthority.Proofs.Office.Origin
import CertAuthority.Proofs.Office.Told
import CertAuthority.Proofs.Office.Trace
import CertAuthority.Proofs.Pem
import CertAuthority.Proofs.Request.Agreement
import CertAuthority.Proofs.Request.Answers
import CertAuthority.Proofs.Request.Custody
import CertAuthority.Proofs.Request.Decision
import CertAuthority.Proofs.Request.Exclusion
import CertAuthority.Proofs.Request.Filed
import CertAuthority.Proofs.Request.Heeding
import CertAuthority.Proofs.Request.Listing
import CertAuthority.Proofs.Request.Lock
import CertAuthority.Proofs.Request.Locking
import CertAuthority.Proofs.Request.Record
import CertAuthority.Proofs.Request.Sharing
import CertAuthority.Proofs.Request.Stored
import CertAuthority.Proofs.Service.Accountability
import CertAuthority.Proofs.Service.Approval
import CertAuthority.Proofs.Service.Conduct
import CertAuthority.Proofs.Service.Delivery
import CertAuthority.Proofs.Service.Desk
import CertAuthority.Proofs.Service.Filing
import CertAuthority.Proofs.Service.Footprint
import CertAuthority.Proofs.Service.Horizon
import CertAuthority.Proofs.Service.Issuing
import CertAuthority.Proofs.Service.Keying
import CertAuthority.Proofs.Service.Lifetime
import CertAuthority.Proofs.Service.Naming
import CertAuthority.Proofs.Service.Readability
import CertAuthority.Proofs.Service.Renewal
import CertAuthority.Proofs.Service.Retrial
import CertAuthority.Proofs.Service.Revocation
import CertAuthority.Proofs.Service.Submission
import CertAuthority.Proofs.Service.Writes
import CertAuthority.Proofs.Store.Directory
import CertAuthority.Proofs.Store.Durable
import CertAuthority.Proofs.Store.Entries
import CertAuthority.Proofs.Store.Enumeration
import CertAuthority.Proofs.Store.File
import CertAuthority.Proofs.Store.Records
import CertAuthority.Proofs.Store.Revision
import CertAuthority.Proofs.Store.Site
import CertAuthority.Proofs.Store.Snapshot
import CertAuthority.Proofs.Store.Sorting
import CertAuthority.Proofs.Store.Text
import CertAuthority.Proofs.Store.Twins
import CertAuthority.Proofs.Store.Writable
import CertAuthority.Proofs.Subject.CommonName
import CertAuthority.Proofs.Text.Blank
import CertAuthority.Proofs.Time.Calendar
import CertAuthority.Proofs.Time.Instant
import CertAuthority.Proofs.Time.Rfc3339
import CertAuthority.Proofs.Token.Ageing
import CertAuthority.Proofs.Token.Conduct
import CertAuthority.Proofs.Token.Decision
import CertAuthority.Proofs.Token.Expiry
import CertAuthority.Proofs.Token.Listing
import CertAuthority.Proofs.Token.Pruning
import CertAuthority.Proofs.Token.Rounds
import CertAuthority.Proofs.Token.Spending
import CertAuthority.Proofs.Token.Writes
import CertAuthority.Proofs.X509.Name
import CertAuthority.Proofs.X509.Parts
import CertAuthority.Proofs.X509.Trust
import CertAuthority.Proofs.X509.Validity
import CertAuthority.Request.Basic
import CertAuthority.Request.Json
import CertAuthority.Request.Ledger
import CertAuthority.Request.Lock
import CertAuthority.Service
import CertAuthority.Shutdown
import CertAuthority.Store.Call
import CertAuthority.Store.Fault
import CertAuthority.Store.File
import CertAuthority.Store.Memory
import CertAuthority.Store.Snapshot
import CertAuthority.Store.Table
import CertAuthority.Subject.CommonName
import CertAuthority.Subject.Identity
import CertAuthority.Text.Character
import CertAuthority.Text.Quoted
import CertAuthority.Text.Width
import CertAuthority.Time.Calendar
import CertAuthority.Time.Instant
import CertAuthority.Time.Rfc3339
import CertAuthority.Token.Basic
import CertAuthority.Token.Export
import CertAuthority.Token.Json
import CertAuthority.Token.Store
import CertAuthority.Toml.Document
import CertAuthority.Toml.Quoted
import CertAuthority.Toml.Table
import CertAuthority.X509.Certificate
import CertAuthority.X509.Extension
import CertAuthority.X509.Key
import CertAuthority.X509.Name
import CertAuthority.X509.Request
import CertAuthority.X509.Signature
import CertAuthority.X509.SigningKey
import CertAuthority.X509.SingleValued
import CertAuthority.X509.Trust
import CertAuthority.X509.Validity
