import SchemaCompiler.Main
import SchemaCompiler.Proofs.Lowering.Account
import SchemaCompiler.Proofs.Lowering.Nesting
import SchemaCompiler.Proofs.Rendering.Reference
import SchemaCompiler.Proofs.Layout.Modes
import SchemaCompiler.Proofs.Layout.DocumentOrder
import SchemaCompiler.Proofs.Generation.Inside
import SchemaCompiler.Proofs.CommandLine.Outcomes
import SchemaCompiler.Proofs.Layout.Clashes
import SchemaCompiler.Proofs.Lowering.Places
import SchemaCompiler.Proofs.Rendering.Leaves
import SchemaCompiler.Proofs.Lowering.Dangling
import SchemaCompiler.Proofs.CommandLine.Findings
import SchemaCompiler.Proofs.Generation.Again
import SchemaCompiler.Proofs.Lowering.Names
import SchemaCompiler.Proofs.Registry.Calls
import SchemaCompiler.Proofs.Registry.Layers
import SchemaCompiler.Proofs.Registry.Refusals
import SchemaCompiler.Proofs.Rendering.Comments
import SchemaCompiler.Proofs.Rendering.Literals
import SchemaCompiler.Proofs.Rendering.KeyTokens
import SchemaCompiler.Proofs.Rendering.Members
import SchemaCompiler.Proofs.Rendering.FormatComments
import SchemaCompiler.Proofs.Rendering.Blame
import SchemaCompiler.Proofs.Files.Refusals
import SchemaCompiler.Proofs.Generation.Interruption
import SchemaCompiler.Proofs.Generation.WriteFailures
import SchemaCompiler.Proofs.Files.Loading
import SchemaCompiler.Proofs.Layout.Unused
import SchemaCompiler.Proofs.Rendering.Mirrors
import SchemaCompiler.Proofs.Lowering.Reuse
import SchemaCompiler.Proofs.Declarations.Checks
import SchemaCompiler.Proofs.Lowering.Regular
import SchemaCompiler.Proofs.Config.Alike
import SchemaCompiler.Proofs.Config.Decoding
import SchemaCompiler.Proofs.Layout.Conventional
import SchemaCompiler.Proofs.Config.Fields
import SchemaCompiler.Proofs.Config.Models
import SchemaCompiler.Proofs.Config.StrayKeys
import SchemaCompiler.Proofs.Config.Spellings
import SchemaCompiler.Proofs.Terminal.Intact
import SchemaCompiler.Proofs.Terminal.Breaking
import SchemaCompiler.Proofs.Terminal.Columns
import SchemaCompiler.Proofs.Terminal.Rows
import SchemaCompiler.Proofs.Terminal.Pictures
import SchemaCompiler.Proofs.Terminal.Widths
import SchemaCompiler.Proofs.Terminal.Shown
