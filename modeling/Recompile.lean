import Recompile.Analysis.Basic
import Recompile.Analysis.Error
import Recompile.Analysis.Layout
import Recompile.Analysis.Lookup
import Recompile.Analysis.Setup
import Recompile.Analysis.Store
import Recompile.Archive.Crc32
import Recompile.Archive.Deflate.Code
import Recompile.Archive.Deflate.Inflate
import Recompile.Archive.Deflate.Matching
import Recompile.Archive.Deflate.Portions
import Recompile.Archive.Deflate.Writing
import Recompile.Archive.Zip.Codepage
import Recompile.Archive.Zip.Directory
import Recompile.Archive.Zip.Entry
import Recompile.Archive.Zip.Member
import Recompile.Archive.Zip.Opening
import Recompile.Archive.Zip.Reading
import Recompile.Archive.Zip.Record
import Recompile.Archive.Zip.Writing
import Recompile.Bridge.Artifact
import Recompile.Bridge.Bootstrap
import Recompile.Bridge.Cache
import Recompile.Bridge.Error
import Recompile.Bridge.Key
import Recompile.Bridge.Resolution
import Recompile.Calendar
import Recompile.ClassName
import Recompile.Codec
import Recompile.CommandLine.Arguments
import Recompile.CommandLine.Inputs
import Recompile.CommandLine.Inspection
import Recompile.CommandLine.Project
import Recompile.CommandLine.Running
import Recompile.Compile.Error
import Recompile.Compile.Module
import Recompile.Compile.Prepare
import Recompile.CompileOrder
import Recompile.Config.Basic
import Recompile.Config.Error
import Recompile.Config.Loading
import Recompile.Diagnostic.Basic
import Recompile.Diagnostic.Render
import Recompile.Diagnostic.Sink
import Recompile.Digest
import Recompile.Digest.Xxh3
import Recompile.Engine.Batches
import Recompile.Engine.Changes
import Recompile.Engine.Classpath
import Recompile.Engine.Compiler
import Recompile.Engine.Dependents
import Recompile.Engine.Error
import Recompile.Engine.Incremental
import Recompile.Engine.Invalidation
import Recompile.Engine.Recording
import Recompile.Files.Basic
import Recompile.Files.Fault
import Recompile.Host
import Recompile.Jar.Archive
import Recompile.Jar.Manifest
import Recompile.Log
import Recompile.Main
import Recompile.NameTree
import Recompile.Path
import Recompile.Sample.CopyingCompiler
import Recompile.Sample.LineCompiler
import Recompile.Script.Arithmetic
import Recompile.Script.Awk.Basic
import Recompile.Script.Awk.Reading
import Recompile.Script.Awk.Running
import Recompile.Script.Awk.Value
import Recompile.Script.Basic
import Recompile.Script.Builtin
import Recompile.Script.Condition
import Recompile.Script.Edit.Basic
import Recompile.Script.Edit.Reading
import Recompile.Script.Edit.Running
import Recompile.Script.Ending
import Recompile.Script.Expansion
import Recompile.Script.Format
import Recompile.Script.Pattern
import Recompile.Script.Process
import Recompile.Script.Reading
import Recompile.Script.Regex
import Recompile.Script.Running
import Recompile.Script.Shell
import Recompile.Script.Tool.Difference
import Recompile.Script.Tool.Dump
import Recompile.Script.Tool.Editing
import Recompile.Script.Tool.Files
import Recompile.Script.Tool.Options
import Recompile.Script.Tool.Records
import Recompile.Script.Tool.Search
import Recompile.Script.Tool.Sorting
import Recompile.Script.Tool.Starting
import Recompile.Script.Tool.Storage
import Recompile.Script.Tool.Text
import Recompile.Script.Tool.Values
import Recompile.Session
import Recompile.SingleFlight
import Recompile.SortedMap
import Recompile.Text.Bytes
import Recompile.Text.Decimal
import Recompile.Text.Hidden
import Recompile.Text.Line
import Recompile.Text.Quoted
import Recompile.Text.Rounded
import Recompile.Text.Space
import Recompile.Toml.Decoding
import Recompile.Toml.Reading
import Recompile.Toml.Scalar
import Recompile.Toml.Table
import Recompile.Toml.Value
import Recompile.Toolchain.Coordinates
import Recompile.Toolchain.Error
import Recompile.Toolchain.Identity
import Recompile.Toolchain.LoadingContext
import Recompile.Toolchain.Provisioning
import Recompile.Toolchain.Version
import Recompile.Proofs.Action
import Recompile.Proofs.Clean
import Recompile.Proofs.Codec
import Recompile.Proofs.Dependents
import Recompile.Proofs.Recording
import Recompile.Proofs.Rounds
import Recompile.Proofs.History
import Recompile.Proofs.Propagation
import Recompile.Proofs.Trace
import Recompile.Proofs.Translation
import Recompile.Proofs.Walk
import Recompile.Proofs.Place
import Recompile.Proofs.Opening
import Recompile.Proofs.PlainSearch
import Recompile.Proofs.Settled
import Recompile.Proofs.Compile
import Recompile.Proofs.FixedPoint
import Recompile.Proofs.Coherence
import Recompile.Proofs.Untouched
import Recompile.Proofs.Atomicity
import Recompile.Proofs.OutputDirectory
import Recompile.Proofs.ClassFiles
import Recompile.Proofs.Builds
import Recompile.Proofs.Asking
import Recompile.Proofs.Removal
import Recompile.Proofs.Alike
import Recompile.Proofs.Rebuild
import Recompile.Proofs.Scratch
import Recompile.Proofs.Packaging
import Recompile.Proofs.Linkless
import Recompile.Proofs.BridgeAttempt
import Recompile.Proofs.Bridges
import Recompile.Proofs.Answers
import Recompile.Proofs.StorePlaces
import Recompile.Proofs.Visibility
import Recompile.Proofs.Ownership
import Recompile.Proofs.Calls
import Recompile.Proofs.Bystanders
import Recompile.Proofs.Justification
import Recompile.Proofs.Reporting
import Recompile.Proofs.SinkAccounts
import Recompile.Proofs.Listing
import Recompile.Proofs.EntryNames
import Recompile.Proofs.Unpacking
import Recompile.Proofs.JarContents
import Recompile.Proofs.RoundTrip
import Recompile.Proofs.Damage
import Recompile.Proofs.Spelling
import Recompile.Proofs.RecordOrder
import Recompile.Proofs.BridgeNames
import Recompile.Proofs.PlainTable
import Recompile.Proofs.ManifestLines
import Recompile.Proofs.ClassNames
import Recompile.Proofs.FixedCodes
import Recompile.Proofs.MakingDirs
import Recompile.Proofs.EnclosedNames
import Recompile.Proofs.Containment
import Recompile.Proofs.VersionGrammar
import Recompile.Proofs.Suppliers
import Recompile.Proofs.BridgeClasspath
import Recompile.Proofs.RepositoryPaths
import Recompile.Proofs.Framing
import Recompile.Proofs.RelativeNames
import Recompile.Proofs.Changes
