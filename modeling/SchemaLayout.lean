import SchemaLayout.Text.Json.Reader
import SchemaLayout.Text.Json.Printer
import SchemaLayout.Text.Lowercase
import SchemaLayout.Text.Quoted
import SchemaLayout.Text.Palette
import SchemaLayout.Name
import SchemaLayout.Edition
import SchemaLayout.Feature.Set
import SchemaLayout.Declaration.Build
import SchemaLayout.Feature.Rules
import SchemaLayout.Declaration.Reading
import SchemaLayout.Declaration.Writing
import SchemaLayout.Program.Stream
import SchemaLayout.Program.Literal
import SchemaLayout.Layout.Plan
import SchemaLayout.NameTable.Program
import SchemaLayout.Listing.Plan
import SchemaLayout.Listing.NameTable
import SchemaLayout.Data.OrderedMap
import SchemaLayout.Target
import SchemaLayout.Schema.Assembly
import SchemaLayout.Layout.Placement
import SchemaLayout.Compiler
import SchemaLayout.OutputNames
import SchemaLayout.Main
import SchemaLayout.Proofs.Analysis.Storage
import SchemaLayout.Proofs.Layout.Codec
import SchemaLayout.Proofs.Layout.Regions
import SchemaLayout.Proofs.Layout.Required
import SchemaLayout.Proofs.NameTable.OfMessage
import SchemaLayout.Proofs.Compiler.Session
import SchemaLayout.Proofs.NameTable.OfEnum
import SchemaLayout.Proofs.Compiler.Growth
import SchemaLayout.Proofs.Compiler.FieldOrder
import SchemaLayout.Proofs.Schema.Integrity
import SchemaLayout.Proofs.Compiler.Description
import SchemaLayout.Proofs.Compiler.ScopeFeatures
import SchemaLayout.Proofs.Schema.Inheritance
import SchemaLayout.Proofs.Analysis.Termination
import SchemaLayout.Proofs.Schema.Owners
import SchemaLayout.Proofs.Schema.Lookup
import SchemaLayout.Proofs.Compiler.Capacity
import SchemaLayout.Proofs.Program.RoundTrip
import SchemaLayout.Proofs.CommandLine.Report
import SchemaLayout.Proofs.Schema.FixedFeatures
import SchemaLayout.Proofs.Declaration.RoundTrip
import SchemaLayout.Proofs.Layout.Refusal
import SchemaLayout.Proofs.Layout.SubmessageTable
import SchemaLayout.Proofs.Analysis.Checks
import SchemaLayout.Proofs.NameTable.GroupNames
import SchemaLayout.Proofs.NameTable.Truncation
import SchemaLayout.Proofs.Listing.Colours
import SchemaLayout.Proofs.Feature.Spellings
import SchemaLayout.Proofs.Compiler.MapFields
import SchemaLayout.Proofs.Feature.Merging
import SchemaLayout.Proofs.Layout.Packing
import SchemaLayout.Proofs.Schema.Refusal
import SchemaLayout.Proofs.Schema.Imports
import SchemaLayout.Proofs.Program.Literal
import SchemaLayout.Proofs.Program.Varint
import SchemaLayout.Proofs.Analysis.Marking
import SchemaLayout.Proofs.Layout.Density
