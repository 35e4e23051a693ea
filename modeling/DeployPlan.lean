import DeployPlan.Artifacts
import DeployPlan.Build.Basic
import DeployPlan.Build.Commands
import DeployPlan.Build.Selection
import DeployPlan.Build.Staging
import DeployPlan.Build.Values
import DeployPlan.CommandLine.Options
import DeployPlan.CommandLine.Reach
import DeployPlan.CommandLine.Run
import DeployPlan.Compiler
import DeployPlan.Containment
import DeployPlan.Decimal.Binary64
import DeployPlan.Decimal.Literal
import DeployPlan.Decimal.Scaled
import DeployPlan.Decimal.Shortest
import DeployPlan.Decoration
import DeployPlan.Entries
import DeployPlan.Evaluation
import DeployPlan.Failure
import DeployPlan.Files.FileTree
import DeployPlan.Files.Path
import DeployPlan.FormatText
import DeployPlan.HostName.Basic
import DeployPlan.HostName.Mapping
import DeployPlan.HostName.Punycode
import DeployPlan.Json.Basic
import DeployPlan.Json.Reader
import DeployPlan.Json.Text
import DeployPlan.Lifecycle
import DeployPlan.Log
import DeployPlan.Main
import DeployPlan.NameMap
import DeployPlan.Plan.Basic
import DeployPlan.Plan.Text
import DeployPlan.Proofs.Build.Commands
import DeployPlan.Proofs.Build.Contributors
import DeployPlan.Proofs.Build.Steps
import DeployPlan.Proofs.Compiler.History
import DeployPlan.Proofs.Containment.Ascent
import DeployPlan.Proofs.Containment.Branch
import DeployPlan.Proofs.Containment.Root
import DeployPlan.Proofs.Evaluation.Order
import DeployPlan.Proofs.Evaluation.Pass
import DeployPlan.Proofs.Evaluation.Plain
import DeployPlan.Proofs.Evaluation.Query
import DeployPlan.Proofs.Evaluation.Visit
import DeployPlan.Proofs.FormatText
import DeployPlan.Proofs.Plan.Forest
import DeployPlan.Proofs.Plan.Identity
import DeployPlan.Proofs.Tree.Map
import DeployPlan.Property
import DeployPlan.Reference.Basic
import DeployPlan.Reference.FilePath
import DeployPlan.Reference.Host
import DeployPlan.Registry
import DeployPlan.Scene
import DeployPlan.Scope
import DeployPlan.Settings
import DeployPlan.Settings.Reader
import DeployPlan.Sources
import DeployPlan.Text.Blank
import DeployPlan.Text.CodeRange
import DeployPlan.Text.Composition
import DeployPlan.Text.Direction
import DeployPlan.Text.Hex
import DeployPlan.Text.Mark
import DeployPlan.Toml.Date
import DeployPlan.Toml.Document
import DeployPlan.Toml.Report
import DeployPlan.Toml.Table
import DeployPlan.Topology.Basic
import DeployPlan.Topology.Reader
import DeployPlan.Tree
import DeployPlan.TypeCatalog
import DeployPlan.Yaml.Core
import DeployPlan.Yaml.Cursor
import DeployPlan.Yaml.Document
import DeployPlan.Yaml.Scalar
import DeployPlan.Yaml.Tag
import DeployPlan.Yaml.Token
import DeployPlan.Proofs.Compiler.Host
import DeployPlan.Proofs.Overlay
import DeployPlan.Proofs.TypeCatalog.Derivation
import DeployPlan.Proofs.TypeCatalog.Documents
import DeployPlan.Proofs.TypeCatalog.Profile
import DeployPlan.Proofs.TypeCatalog.Refusal
import DeployPlan.Proofs.Naming.Evaluation
import DeployPlan.Proofs.Build.Selection
import DeployPlan.Proofs.Naming.NodePlan
import DeployPlan.Proofs.Naming.Plan
import DeployPlan.Proofs.Scene
import DeployPlan.Proofs.Compiler.Naming
import DeployPlan.Proofs.Build.Checks
import DeployPlan.Proofs.Build.Readings
import DeployPlan.Proofs.Build.NodeFaults
import DeployPlan.Proofs.Containment.Cycle
import DeployPlan.Proofs.Containment.Loop
import DeployPlan.Proofs.Tree.Update
import DeployPlan.Proofs.Plan.Decoration
import DeployPlan.Proofs.Plan.Groups
import DeployPlan.Proofs.Plan.GroupFaults
import DeployPlan.Proofs.Plan.Faults
import DeployPlan.Proofs.Compiler.Failure
import DeployPlan.Proofs.Build.Assembly
import DeployPlan.Proofs.Plan.Config
import DeployPlan.Proofs.Compiler.Config
import DeployPlan.Proofs.Log
import DeployPlan.Proofs.Compiler.Reports
import DeployPlan.Proofs.Compiler.Roots
import DeployPlan.Proofs.Build.Notes
import DeployPlan.Proofs.Build.Parts
import DeployPlan.Proofs.Compiler.Diagnostics
import DeployPlan.Proofs.Compiler.Tags
import DeployPlan.Proofs.Topology.Grammar
import DeployPlan.Proofs.Topology.Shorthand
import DeployPlan.Proofs.Compiler.Kinds
import DeployPlan.Proofs.Compiler.Aliases
import DeployPlan.Proofs.Evaluation.Derivation
import DeployPlan.Proofs.Build.Preamble
import DeployPlan.Proofs.Build.Injection
import DeployPlan.Proofs.Files.Names
import DeployPlan.Proofs.Files.Nodes
import DeployPlan.Proofs.Files.Distinct
import DeployPlan.Proofs.Build.Staging
import DeployPlan.Proofs.Compiler.Planned
import DeployPlan.Proofs.Compiler.Staging
import DeployPlan.Proofs.Files.Place
import DeployPlan.Proofs.Artifacts.Inside
import DeployPlan.Proofs.Artifacts.Classpath
import DeployPlan.Proofs.Artifacts.Search
import DeployPlan.Proofs.Compiler.Inheritance
import DeployPlan.Proofs.Evaluation.Concat
import DeployPlan.Proofs.Evaluation.Entity
import DeployPlan.Proofs.Registry.History
import DeployPlan.Proofs.Log.Run
import DeployPlan.Proofs.Tree.Context
import DeployPlan.Proofs.Plan.Lookup
import DeployPlan.Proofs.Lifecycle
import DeployPlan.Proofs.FormatText.Normal
import DeployPlan.Proofs.Plan.Members
import DeployPlan.Proofs.Files.Listing
