import BicepForge.Assembly.Basic
import BicepForge.Assembly.Dependency
import BicepForge.Assembly.Member
import BicepForge.Assembly.Package
import BicepForge.Assembly.SchemaDirectory
import BicepForge.Bicep.Declaration
import BicepForge.Bicep.Document
import BicepForge.Bicep.Value
import BicepForge.Catalog
import BicepForge.Check.Code
import BicepForge.Check.Input
import BicepForge.Check.ResourceType
import BicepForge.Check.Schema
import BicepForge.Check.Template
import BicepForge.CommandLine.Arguments
import BicepForge.CommandLine.Command
import BicepForge.CommandLine.Failure
import BicepForge.CommandLine.Help
import BicepForge.CommandLine.Run
import BicepForge.Configuration
import BicepForge.Configuration.Format
import BicepForge.Configuration.Yaml
import BicepForge.Context
import BicepForge.Conversion.Analysis
import BicepForge.Conversion.Plan
import BicepForge.Conversion.Session
import BicepForge.Decimal.Binary64
import BicepForge.Decimal.Power
import BicepForge.Decimal.Shortest
import BicepForge.Document.DeploymentTemplate
import BicepForge.Document.Input
import BicepForge.Document.ResourceSchema
import BicepForge.Entries
import BicepForge.Files.Access
import BicepForge.Files.Path
import BicepForge.Files.Tree
import BicepForge.Generation.Generator
import BicepForge.Generation.Naming
import BicepForge.Generation.Parameter
import BicepForge.Generation.Recipe
import BicepForge.Generation.StorageAccount
import BicepForge.Generation.VirtualMachine
import BicepForge.Generation.VirtualNetwork
import BicepForge.Generation.WebSite
import BicepForge.Instant
import BicepForge.Json.Basic
import BicepForge.Json.Printer
import BicepForge.Json.Reader
import BicepForge.JsonSchema.Complaint
import BicepForge.JsonSchema.Format
import BicepForge.JsonSchema.MetaSchema
import BicepForge.JsonSchema.Regex
import BicepForge.JsonSchema.Schema
import BicepForge.JsonSchema.Uri
import BicepForge.JsonSchema.Validation
import BicepForge.Main
import BicepForge.Metadata
import BicepForge.Proofs.Assembly.Correction
import BicepForge.Proofs.Assembly.Isolation
import BicepForge.Proofs.Assembly.Keys
import BicepForge.Proofs.Assembly.Members
import BicepForge.Proofs.Assembly.Modes
import BicepForge.Proofs.Assembly.Namespace
import BicepForge.Proofs.Assembly.Openings
import BicepForge.Proofs.Assembly.Package
import BicepForge.Proofs.Assembly.Rearrangement
import BicepForge.Proofs.Assembly.References
import BicepForge.Proofs.Assembly.Versions
import BicepForge.Proofs.Assembly.Wiring
import BicepForge.Proofs.Bicep.Denotation
import BicepForge.Proofs.Bicep.DocumentLines
import BicepForge.Proofs.Bicep.DocumentPieces
import BicepForge.Proofs.Bicep.Escaping
import BicepForge.Proofs.Bicep.Keys
import BicepForge.Proofs.Bicep.Lines
import BicepForge.Proofs.Bicep.Literal
import BicepForge.Proofs.Bicep.Nesting
import BicepForge.Proofs.Bicep.Pieces
import BicepForge.Proofs.Bicep.RoundTrip
import BicepForge.Proofs.Bicep.Templates
import BicepForge.Proofs.Check.Acceptance
import BicepForge.Proofs.Check.CommentContents
import BicepForge.Proofs.Check.CommentStart
import BicepForge.Proofs.Check.Comments
import BicepForge.Proofs.Check.Consultation
import BicepForge.Proofs.Check.Counting
import BicepForge.Proofs.Check.Documents
import BicepForge.Proofs.Check.Fragment
import BicepForge.Proofs.Check.Knowledge
import BicepForge.Proofs.Check.ListedTypes
import BicepForge.Proofs.Check.Plans
import BicepForge.Proofs.Check.Recipes
import BicepForge.Proofs.Check.Reports
import BicepForge.Proofs.Check.Scaffolds
import BicepForge.Proofs.Check.Sessions
import BicepForge.Proofs.Check.Values
import BicepForge.Proofs.CommandLine.Detection
import BicepForge.Proofs.CommandLine.ExitCodes
import BicepForge.Proofs.CommandLine.Renaming
import BicepForge.Proofs.CommandLine.Selection
import BicepForge.Proofs.CommandLine.TwoRuns
import BicepForge.Proofs.Configuration.Options
import BicepForge.Proofs.Conversion.Histories
import BicepForge.Proofs.Conversion.Needs
import BicepForge.Proofs.Conversion.VmName
import BicepForge.Proofs.Document.ApiVersions
import BicepForge.Proofs.Files.Places
import BicepForge.Proofs.Files.Writing
import BicepForge.Proofs.Generation.Bindings
import BicepForge.Proofs.Generation.Bounds
import BicepForge.Proofs.Generation.Constraints
import BicepForge.Proofs.Generation.Defaults
import BicepForge.Proofs.Generation.Derived
import BicepForge.Proofs.Generation.Lines
import BicepForge.Proofs.Generation.Location
import BicepForge.Proofs.Generation.Namespace
import BicepForge.Proofs.Generation.Naming
import BicepForge.Proofs.Generation.Openings
import BicepForge.Proofs.Generation.Types
import BicepForge.Proofs.Generation.Usable
import BicepForge.Proofs.Generation.Versions
import BicepForge.Proofs.Json.Keys
import BicepForge.Proofs.Json.Numeral
import BicepForge.Proofs.Json.Surroundings
import BicepForge.Proofs.Metadata.Cache
import BicepForge.Proofs.References.Declared
import BicepForge.Proofs.References.Names
import BicepForge.Proofs.References.Plans
import BicepForge.Proofs.References.Recipes
import BicepForge.Proofs.References.Scanner
import BicepForge.Proofs.Registry.Selection
import BicepForge.Proofs.Text.ByteOrder
import BicepForge.Proofs.Text.Joined
import BicepForge.Proofs.Text.Letters
import BicepForge.Proofs.Text.LowerCase
import BicepForge.Proofs.Text.Pieces
import BicepForge.Proofs.Text.Replacement
import BicepForge.Registry
import BicepForge.Report
import BicepForge.ResourceType
import BicepForge.Scaffold
import BicepForge.TargetScope
import BicepForge.Text.Blank
import BicepForge.Text.CaseTable
import BicepForge.Text.LowerCase
import BicepForge.Text.Order
import BicepForge.Text.Search
import BicepForge.Yaml.Character
import BicepForge.Yaml.Cursor
import BicepForge.Yaml.Node
import BicepForge.Yaml.Resolution
import BicepForge.Yaml.Scalar
import BicepForge.Yaml.Token
import BicepForge.Yaml.Token.Directive
import BicepForge.Yaml.Token.Lexer
import BicepForge.Yaml.Token.Scalar
