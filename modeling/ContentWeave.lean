import ContentWeave.Text.Basic
import ContentWeave.Text.CaseTable
import ContentWeave.Text.Property.Letters
import ContentWeave.Text.Property.Numbers
import ContentWeave.Text.Property.Marks
import ContentWeave.Text.Property.Casing
import ContentWeave.Text.Property.Printing
import ContentWeave.Text.Quoted
import ContentWeave.Text.Word
import ContentWeave.Text.Casing
import ContentWeave.Number.Fixed
import ContentWeave.Value
import ContentWeave.Format.Registry
import ContentWeave.Directive
import ContentWeave.Form
import ContentWeave.Template
import ContentWeave.Digest.Sha256
import ContentWeave.Json.Basic
import ContentWeave.Json.Codec
import ContentWeave.Json.Normal
import ContentWeave.Files.Tree
import ContentWeave.Cache.Memory
import ContentWeave.Cache.Directory
import ContentWeave.ChunkStore.Directory
import ContentWeave.ChunkStore.Memory
import ContentWeave.Compiler
import ContentWeave.Toml.Reader
import ContentWeave.Config.Load
import ContentWeave.Command.Run
import ContentWeave.Main
import ContentWeave.Proofs.Text.Brackets
import ContentWeave.Proofs.Text.Places
import ContentWeave.Proofs.Directive.Bodies
import ContentWeave.Proofs.Compile.Running
import ContentWeave.Proofs.Compile.Splicing
import ContentWeave.Proofs.Compile.Filling
import ContentWeave.Proofs.Json.RoundTrip
import ContentWeave.Proofs.Cache.Sound
import ContentWeave.Proofs.Cache.OnDisk
import ContentWeave.Proofs.Compile.Stages
import ContentWeave.Proofs.Session.Transparency
import ContentWeave.Proofs.Session.Provenance
import ContentWeave.Proofs.Compile.Repeats
import ContentWeave.Proofs.Call.Literals
import ContentWeave.Proofs.Call.Written
import ContentWeave.Proofs.Number.Numerals
import ContentWeave.Proofs.Format.Entities
import ContentWeave.Proofs.Format.Figures
import ContentWeave.Proofs.Config.References
import ContentWeave.Proofs.Session.Depot
import ContentWeave.Proofs.Session.Lookups
import ContentWeave.Proofs.Session.Residents
import ContentWeave.Proofs.Cache.History
import ContentWeave.Proofs.Cache.InMemory
import ContentWeave.Proofs.Cache.EntryFile
import ContentWeave.Proofs.Files.Places
import ContentWeave.Proofs.Files.Drawers
import ContentWeave.Proofs.Cache.Installed
import ContentWeave.Proofs.Cache.Reopening
import ContentWeave.Proofs.Cache.Faults
import ContentWeave.Proofs.Session.Faults
import ContentWeave.Proofs.Cache.Eviction
import ContentWeave.Proofs.Session.Ledger
import ContentWeave.Proofs.Session.Invalidation
import ContentWeave.Proofs.Session.Renewal
import ContentWeave.Proofs.ChunkStore.Missing
import ContentWeave.Proofs.Command.Directories
import ContentWeave.Proofs.Directive.Finding
import ContentWeave.Proofs.Call.Grammar
import ContentWeave.Proofs.Call.Slices
import ContentWeave.Proofs.Compile.Origins
import ContentWeave.Proofs.Placeholder.Written
import ContentWeave.Proofs.Form.Element
import ContentWeave.Proofs.ChunkStore.Confined
import ContentWeave.Proofs.Cache.Framing
import ContentWeave.Proofs.Number.Floats
import ContentWeave.Proofs.Files.Ancestors
import ContentWeave.InPlace.Numeral
import ContentWeave.Proofs.Config.Loading
import ContentWeave.Proofs.Text.Slices
import ContentWeave.Proofs.Number.Spelling
import ContentWeave.InPlace.Assignment
import ContentWeave.InPlace.Directive
import ContentWeave.InPlace.Placeholder
import ContentWeave.Proofs.Number.Cutting
import ContentWeave.Proofs.InPlace.Scans
import ContentWeave.Proofs.InPlace.Directives
import ContentWeave.Proofs.InPlace.Placeholders
import ContentWeave.Proofs.InPlace.Assignments
import ContentWeave.Proofs.InPlace.Progress
