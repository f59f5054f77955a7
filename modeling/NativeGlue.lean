import NativeGlue.Main
import NativeGlue.Mapping.Extension
import NativeGlue.Proofs.Json.Strings
import NativeGlue.Proofs.Json.Documents
import NativeGlue.Proofs.Fallible
import NativeGlue.Proofs.Statistics.Numbering
import NativeGlue.Proofs.Statistics.Storing
import NativeGlue.Proofs.Statistics.History
import NativeGlue.Proofs.Symbol.Spelling
import NativeGlue.Proofs.Symbol.Descriptor
import NativeGlue.Proofs.Source.Types
import NativeGlue.Proofs.Source.Declared
import NativeGlue.Proofs.Source.Classes
import NativeGlue.Proofs.Symbol.Unique
import NativeGlue.Proofs.Source.Independence
import NativeGlue.Proofs.Mapping.Templates
import NativeGlue.Proofs.Text.Occurrence
import NativeGlue.Proofs.Mapping.StandardRules
import NativeGlue.Proofs.Mapping.Signatures
import NativeGlue.Proofs.Mapping.Structs
import NativeGlue.Proofs.Mapping.Layout
import NativeGlue.Proofs.Directive.Written
import NativeGlue.Proofs.Directive.Repeated
import NativeGlue.Proofs.Code.Lines
import NativeGlue.Proofs.Code.Execution
import NativeGlue.Proofs.Code.Wording
import NativeGlue.Proofs.Code.Names
import NativeGlue.Proofs.Code.Phrases
import NativeGlue.Proofs.Code.Discipline
import NativeGlue.Proofs.Code.Regions
import NativeGlue.Proofs.Symbol.RoundTrip
import NativeGlue.Proofs.Symbol.Parts
import NativeGlue.Proofs.Run.Artefacts
import NativeGlue.Proofs.FileTree.Built
import NativeGlue.Proofs.FileTree.Endings
import NativeGlue.Proofs.Output.Written
import NativeGlue.Proofs.FileTree.Listing
import NativeGlue.Proofs.Source.Rescan
import NativeGlue.Proofs.Overlay.Reload
import NativeGlue.Proofs.Statistics.Settled
import NativeGlue.Proofs.Run.Again
import NativeGlue.Proofs.Run.Conditionals
import NativeGlue.Proofs.FileTree.Walking
import NativeGlue.Proofs.Output.Remains
import NativeGlue.Proofs.Run.Untouched
import NativeGlue.Proofs.Code.HeaderLines
import NativeGlue.Proofs.Output.Progress
import NativeGlue.Proofs.Run.Recorded
import NativeGlue.Proofs.Run.Constants
import NativeGlue.Proofs.Run.References
import NativeGlue.Proofs.Run.Interleaving
import NativeGlue.Proofs.FileTree.Descent
import NativeGlue.Proofs.FileTree.Twins
import NativeGlue.Proofs.Output.Parallel
import NativeGlue.Proofs.Run.Inputs
import NativeGlue.Proofs.Run.Isolation
import NativeGlue.Proofs.Overlay.Joining
import NativeGlue.Proofs.Overlay.Lookup
import NativeGlue.Proofs.Text.Lowering
import NativeGlue.Proofs.Code.Platforms
import NativeGlue.Proofs.Source.Distinct
import NativeGlue.Proofs.Source.Skipped
import NativeGlue.Proofs.Run.Skipped
import NativeGlue.Proofs.Source.Accounted
import NativeGlue.Proofs.Output.Modes
import NativeGlue.Proofs.Source.Discovered
import NativeGlue.Proofs.Code.CopyBack
import NativeGlue.Proofs.Code.StructAgreement
import NativeGlue.Proofs.Java.Reported
import NativeGlue.Proofs.Source.Consulted
import NativeGlue.Proofs.Source.Lengths
import NativeGlue.Proofs.Code.LengthChecks
import NativeGlue.Proofs.Code.StructNames
import NativeGlue.Proofs.Text.Parentheses
import NativeGlue.Proofs.Code.Drafts
import NativeGlue.Proofs.Mapping.Casts
import NativeGlue.Proofs.Code.Expressions
