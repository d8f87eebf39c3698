import Strongroom.Blob.Operator
import Strongroom.Blob.Store
import Strongroom.Block
import Strongroom.Bytes
import Strongroom.Catalog.Basic
import Strongroom.Catalog.Document
import Strongroom.Catalog.Entries
import Strongroom.Cipher.Aead
import Strongroom.Cipher.ChaCha20
import Strongroom.Cipher.Poly1305
import Strongroom.CommandLine.Arguments
import Strongroom.CommandLine.Command
import Strongroom.CommandLine.Run
import Strongroom.CommandLine.Seed
import Strongroom.CommandLine.Size
import Strongroom.Config
import Strongroom.Disk.FileTree
import Strongroom.Disk.Script
import Strongroom.Download
import Strongroom.Entropy
import Strongroom.Error
import Strongroom.Failure
import Strongroom.FileRecord
import Strongroom.Hash.Argon2id
import Strongroom.Hash.Blake2b
import Strongroom.Hash.Words64
import Strongroom.Hex
import Strongroom.Json.Parser
import Strongroom.Json.Printer
import Strongroom.Json.Value
import Strongroom.Key
import Strongroom.Main
import Strongroom.Path
import Strongroom.Proofs.Blob.Folder
import Strongroom.Proofs.Blob.Housing
import Strongroom.Proofs.Blob.Memory
import Strongroom.Proofs.Blob.Names
import Strongroom.Proofs.Blob.Objects
import Strongroom.Proofs.Blob.Shelf
import Strongroom.Proofs.Catalog.Calls
import Strongroom.Proofs.Catalog.Canonical
import Strongroom.Proofs.Catalog.Changes
import Strongroom.Proofs.Catalog.DataKeys
import Strongroom.Proofs.Catalog.Document
import Strongroom.Proofs.Catalog.Durability
import Strongroom.Proofs.Catalog.Flush
import Strongroom.Proofs.Catalog.Forms
import Strongroom.Proofs.Catalog.Interchange
import Strongroom.Proofs.Catalog.Maps
import Strongroom.Proofs.Catalog.Remains
import Strongroom.Proofs.Catalog.Retention
import Strongroom.Proofs.Catalog.Sharing
import Strongroom.Proofs.Catalog.Stops
import Strongroom.Proofs.Cipher.Opening
import Strongroom.Proofs.Cipher.Sealing
import Strongroom.Proofs.CommandLine.Confinement
import Strongroom.Proofs.CommandLine.Fetching
import Strongroom.Proofs.CommandLine.Home
import Strongroom.Proofs.CommandLine.Settings
import Strongroom.Proofs.Disk.Failing
import Strongroom.Proofs.Disk.Footprint
import Strongroom.Proofs.Disk.Paths
import Strongroom.Proofs.Disk.Places
import Strongroom.Proofs.Disk.Runs
import Strongroom.Proofs.Disk.Siblings
import Strongroom.Proofs.Json.Compact
import Strongroom.Proofs.Json.Cut
import Strongroom.Proofs.Json.RoundTrip
import Strongroom.Proofs.Stream.Alike
import Strongroom.Proofs.Stream.Chunking
import Strongroom.Proofs.Stream.Encoding
import Strongroom.Proofs.Stream.Grammar
import Strongroom.Proofs.Stream.Layout
import Strongroom.Proofs.Stream.NextRecord
import Strongroom.Proofs.Stream.RoundTrip
import Strongroom.Proofs.Stream.Serving
import Strongroom.Proofs.Stream.Supply
import Strongroom.Proofs.Stream.Tampering
import Strongroom.Proofs.Toml.Documents
import Strongroom.Proofs.Toml.Fields
import Strongroom.Proofs.Toml.Strings
import Strongroom.Proofs.Toml.Values
import Strongroom.Proofs.Transfer.Abandonment
import Strongroom.Proofs.Transfer.Aborts
import Strongroom.Proofs.Transfer.Account
import Strongroom.Proofs.Transfer.Acts
import Strongroom.Proofs.Transfer.Aside
import Strongroom.Proofs.Transfer.Blind
import Strongroom.Proofs.Transfer.Books
import Strongroom.Proofs.Transfer.CallerMoves
import Strongroom.Proofs.Transfer.Cancellation
import Strongroom.Proofs.Transfer.Complaints
import Strongroom.Proofs.Transfer.Conversation
import Strongroom.Proofs.Transfer.Custody
import Strongroom.Proofs.Transfer.Delivery
import Strongroom.Proofs.Transfer.Depiction
import Strongroom.Proofs.Transfer.Desertion
import Strongroom.Proofs.Transfer.Errands
import Strongroom.Proofs.Transfer.Filing
import Strongroom.Proofs.Transfer.Footprint
import Strongroom.Proofs.Transfer.Forwarding
import Strongroom.Proofs.Transfer.Interruption
import Strongroom.Proofs.Transfer.Ledger
import Strongroom.Proofs.Transfer.Lifecycle
import Strongroom.Proofs.Transfer.Outcome
import Strongroom.Proofs.Transfer.Outlook
import Strongroom.Proofs.Transfer.OwnFiles
import Strongroom.Proofs.Transfer.Passage
import Strongroom.Proofs.Transfer.Payload
import Strongroom.Proofs.Transfer.Pipeline
import Strongroom.Proofs.Transfer.Possession
import Strongroom.Proofs.Transfer.Privacy
import Strongroom.Proofs.Transfer.Register
import Strongroom.Proofs.Transfer.Release
import Strongroom.Proofs.Transfer.Room
import Strongroom.Proofs.Transfer.Scene
import Strongroom.Proofs.Transfer.Schedule
import Strongroom.Proofs.Transfer.Shortfall
import Strongroom.Proofs.Transfer.Solo
import Strongroom.Proofs.Transfer.Standing
import Strongroom.Proofs.Transfer.WriterMoves
import Strongroom.Service.Basic
import Strongroom.Service.Conduct
import Strongroom.Service.Transfers
import Strongroom.Setup
import Strongroom.Stream.Decoder
import Strongroom.Stream.Encoder
import Strongroom.Stream.Reader
import Strongroom.Stream.Record
import Strongroom.Text.Blank
import Strongroom.Text.Quoted
import Strongroom.Text.Shape
import Strongroom.Toml.Parser
import Strongroom.Toml.Printer
import Strongroom.Toml.Scalar
import Strongroom.Toml.Table
import Strongroom.Toml.Token
import Strongroom.Toml.Value
import Strongroom.Upload.Basic
import Strongroom.Upload.Caller
import Strongroom.Upload.Writer
import Strongroom.Uuid
import Strongroom.Vault
