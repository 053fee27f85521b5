import PhysicsPrefab.CommandLine.Arguments
import PhysicsPrefab.CommandLine.Execution
import PhysicsPrefab.Config.Basic
import PhysicsPrefab.Config.Toml
import PhysicsPrefab.Emit.Artifact
import PhysicsPrefab.Emit.Emitter
import PhysicsPrefab.Emit.Geometry
import PhysicsPrefab.Emit.Template
import PhysicsPrefab.Files.Disk
import PhysicsPrefab.Files.Path
import PhysicsPrefab.Files.Storage
import PhysicsPrefab.Files.Tree
import PhysicsPrefab.Json.Document
import PhysicsPrefab.Json.Number
import PhysicsPrefab.Json.Reader
import PhysicsPrefab.Json.Token
import PhysicsPrefab.Json.Value
import PhysicsPrefab.Main
import PhysicsPrefab.Model.Basic
import PhysicsPrefab.Model.Centred
import PhysicsPrefab.Model.Loading
import PhysicsPrefab.Model.Reader
import PhysicsPrefab.Model.Written
import PhysicsPrefab.NameMap
import PhysicsPrefab.Notice
import PhysicsPrefab.Number.Numeral
import PhysicsPrefab.Number.Shortest
import PhysicsPrefab.Number.Style
import PhysicsPrefab.Options.Grammar
import PhysicsPrefab.Options.Lookup
import PhysicsPrefab.Prefab.Basic
import PhysicsPrefab.Prefab.Body
import PhysicsPrefab.Prefab.Compilation
import PhysicsPrefab.Prefab.Constraint
import PhysicsPrefab.Prefab.Written
import PhysicsPrefab.Project.Pool
import PhysicsPrefab.Project.Run
import PhysicsPrefab.Project.Sources
import PhysicsPrefab.Proofs.Answers
import PhysicsPrefab.Proofs.Emit.Agreement
import PhysicsPrefab.Proofs.Emit.Builtin
import PhysicsPrefab.Proofs.Emit.Confinement
import PhysicsPrefab.Proofs.Emit.Contents
import PhysicsPrefab.Proofs.Emit.Filling
import PhysicsPrefab.Proofs.Emit.Identifiers
import PhysicsPrefab.Proofs.Emit.Models
import PhysicsPrefab.Proofs.Emit.Outputs
import PhysicsPrefab.Proofs.Emit.Stamping
import PhysicsPrefab.Proofs.Files.Below
import PhysicsPrefab.Proofs.Files.Disk
import PhysicsPrefab.Proofs.Files.Entries
import PhysicsPrefab.Proofs.Files.Forming
import PhysicsPrefab.Proofs.Files.Growth
import PhysicsPrefab.Proofs.Files.Joins
import PhysicsPrefab.Proofs.Files.Listing
import PhysicsPrefab.Proofs.Files.Places
import PhysicsPrefab.Proofs.Files.Routes
import PhysicsPrefab.Proofs.Files.Sameness
import PhysicsPrefab.Proofs.Files.Tree
import PhysicsPrefab.Proofs.Json.Bare
import PhysicsPrefab.Proofs.Json.Building
import PhysicsPrefab.Proofs.Json.Depth
import PhysicsPrefab.Proofs.Json.Growing
import PhysicsPrefab.Proofs.Json.Invariants
import PhysicsPrefab.Proofs.Json.Mapping
import PhysicsPrefab.Proofs.Json.Members
import PhysicsPrefab.Proofs.Json.Numbers
import PhysicsPrefab.Proofs.Json.Numerals
import PhysicsPrefab.Proofs.Json.Proper
import PhysicsPrefab.Proofs.Json.Records
import PhysicsPrefab.Proofs.Json.Reordering
import PhysicsPrefab.Proofs.Json.Replacing
import PhysicsPrefab.Proofs.Json.Restoring
import PhysicsPrefab.Proofs.Json.Scanning
import PhysicsPrefab.Proofs.Model.Accepting
import PhysicsPrefab.Proofs.Model.Changing
import PhysicsPrefab.Proofs.Model.Fields
import PhysicsPrefab.Proofs.Model.Growing
import PhysicsPrefab.Proofs.Model.Nesting
import PhysicsPrefab.Proofs.Model.Reordering
import PhysicsPrefab.Proofs.Model.Rereading
import PhysicsPrefab.Proofs.Model.Restoring
import PhysicsPrefab.Proofs.Model.Schema
import PhysicsPrefab.Proofs.NameMaps
import PhysicsPrefab.Proofs.Number.Decimals
import PhysicsPrefab.Proofs.Number.Finiteness
import PhysicsPrefab.Proofs.Number.Grids
import PhysicsPrefab.Proofs.Number.Nearest
import PhysicsPrefab.Proofs.Number.Numerals
import PhysicsPrefab.Proofs.Number.Plain
import PhysicsPrefab.Proofs.Number.Rounding
import PhysicsPrefab.Proofs.Options.Declared
import PhysicsPrefab.Proofs.Options.Numbers
import PhysicsPrefab.Proofs.Options.Separators
import PhysicsPrefab.Proofs.Options.Trimming
import PhysicsPrefab.Proofs.Options.Written
import PhysicsPrefab.Proofs.Prefab.Assembly
import PhysicsPrefab.Proofs.Prefab.Calls
import PhysicsPrefab.Proofs.Prefab.Constraint
import PhysicsPrefab.Proofs.Prefab.Dependence
import PhysicsPrefab.Proofs.Prefab.Faults
import PhysicsPrefab.Proofs.Prefab.History
import PhysicsPrefab.Proofs.Prefab.Insertion
import PhysicsPrefab.Proofs.Prefab.Pivots
import PhysicsPrefab.Proofs.Prefab.Placement
import PhysicsPrefab.Proofs.Prefab.References
import PhysicsPrefab.Proofs.Prefab.Soundness
import PhysicsPrefab.Proofs.Project.Artifacts
import PhysicsPrefab.Proofs.Project.Compiling
import PhysicsPrefab.Proofs.Project.Confinement
import PhysicsPrefab.Proofs.Project.Discovery
import PhysicsPrefab.Proofs.Project.Effect
import PhysicsPrefab.Proofs.Project.Histories
import PhysicsPrefab.Proofs.Project.Interleaving
import PhysicsPrefab.Proofs.Project.Keeping
import PhysicsPrefab.Proofs.Project.Outcomes
import PhysicsPrefab.Proofs.Project.Overlap
import PhysicsPrefab.Proofs.Project.Phases
import PhysicsPrefab.Proofs.Project.Planning
import PhysicsPrefab.Proofs.Project.Pool
import PhysicsPrefab.Proofs.Project.Prediction
import PhysicsPrefab.Proofs.Project.Preserving
import PhysicsPrefab.Proofs.Project.Programs
import PhysicsPrefab.Proofs.Project.Reading
import PhysicsPrefab.Proofs.Project.Removing
import PhysicsPrefab.Proofs.Project.Reordering
import PhysicsPrefab.Proofs.Project.Replanning
import PhysicsPrefab.Proofs.Project.Rerunning
import PhysicsPrefab.Proofs.Project.Restoring
import PhysicsPrefab.Proofs.Project.Schedules
import PhysicsPrefab.Proofs.Project.Storing
import PhysicsPrefab.Proofs.Project.Twins
import PhysicsPrefab.Proofs.Project.Writing
import PhysicsPrefab.Proofs.Script.Formation
import PhysicsPrefab.Proofs.Script.Forms
import PhysicsPrefab.Proofs.Script.Fragment
import PhysicsPrefab.Proofs.Script.Freshness
import PhysicsPrefab.Proofs.Script.Imports
import PhysicsPrefab.Proofs.Script.Literals
import PhysicsPrefab.Proofs.Script.Names
import PhysicsPrefab.Proofs.Script.Resolution
import PhysicsPrefab.Proofs.Script.Resolved
import PhysicsPrefab.Proofs.Script.Returned
import PhysicsPrefab.Proofs.Script.Scope
import PhysicsPrefab.Proofs.Script.Tries
import PhysicsPrefab.Script.Basic
import PhysicsPrefab.Script.Identifier
import PhysicsPrefab.Script.Line
import PhysicsPrefab.Text.Quoted
import PhysicsPrefab.Text.Shown
import PhysicsPrefab.Text.Visible
import PhysicsPrefab.Vec3
