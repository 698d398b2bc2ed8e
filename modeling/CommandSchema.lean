import CommandSchema.Definition.Document
import CommandSchema.Field.Layout
import CommandSchema.Main
import CommandSchema.Proofs.Parse.Acceptance
import CommandSchema.Proofs.Parse.Binding
import CommandSchema.Proofs.Parse.Rejection
import CommandSchema.Proofs.Parse.Totality
import CommandSchema.Proofs.Parse.Assignment
import CommandSchema.Proofs.Parse.Extension
import CommandSchema.Proofs.Parse.Interchange
import CommandSchema.Proofs.Parse.Interleaving
import CommandSchema.Proofs.Parse.Terminator
import CommandSchema.Proofs.Parse.Persistence
import CommandSchema.Proofs.Rust.Literal
import CommandSchema.Proofs.Rust.Expression
import CommandSchema.Proofs.Rust.Spelling
import CommandSchema.Proofs.Rust.Item
import CommandSchema.Proofs.Rust.Evaluation
import CommandSchema.Proofs.Generated.FieldCall
import CommandSchema.Proofs.Generated.Chain
import CommandSchema.Proofs.Generated.Line
import CommandSchema.Proofs.Generated.Items
import CommandSchema.Proofs.Generated.Imports
import CommandSchema.Proofs.Generated.Struct
import CommandSchema.Proofs.Generated.Member
import CommandSchema.Proofs.Generated.Behaviour
import CommandSchema.Proofs.Generated.Freshness
import CommandSchema.Proofs.Schema.Validation
import CommandSchema.Proofs.Schema.Fingerprint
import CommandSchema.Proofs.Field.Lossless
import CommandSchema.Proofs.Definition.Rewriting
import CommandSchema.Proofs.Definition.Spelling
import CommandSchema.Proofs.SchemaSet.Growth
import CommandSchema.Proofs.Command.Arguments
import CommandSchema.Proofs.Command.Generate
import CommandSchema.Proofs.Definition.Declarable
import CommandSchema.Proofs.Definition.Meaning
import CommandSchema.Proofs.Field.DerivedName
import CommandSchema.Proofs.Files.Listing
import CommandSchema.Proofs.SchemaSet.Merge
import CommandSchema.Proofs.Parse.Wording
import CommandSchema.Proofs.Command.Batch
import CommandSchema.Proofs.Parse.Rendering
import CommandSchema.Proofs.SchemaSet.History
import CommandSchema.Proofs.Parse.DeclarationOrder
import CommandSchema.Proofs.Parse.Repair
import CommandSchema.Proofs.Generated.Names
import CommandSchema.Proofs.Schema.Report
import CommandSchema.Proofs.Generated.DocComment
import CommandSchema.Proofs.Generated.StructName
import CommandSchema.Proofs.Schema.Resolution
import CommandSchema.Proofs.Text.Integer
