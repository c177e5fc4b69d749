import StatefulPipeline.Address
import StatefulPipeline.Allocation
import StatefulPipeline.Blank
import StatefulPipeline.CommandLine.Arguments
import StatefulPipeline.CommandLine.Output
import StatefulPipeline.CommandLine.Program
import StatefulPipeline.Compile
import StatefulPipeline.Config
import StatefulPipeline.ConfigText
import StatefulPipeline.Controller
import StatefulPipeline.Decision
import StatefulPipeline.Directory
import StatefulPipeline.Encoded
import StatefulPipeline.Fabric
import StatefulPipeline.Json
import StatefulPipeline.Json.Forms
import StatefulPipeline.Key
import StatefulPipeline.Main
import StatefulPipeline.Numeral
import StatefulPipeline.Overview
import StatefulPipeline.Predefined
import StatefulPipeline.Registry
import StatefulPipeline.Rule
import StatefulPipeline.RuleSet
import StatefulPipeline.Schema
import StatefulPipeline.Selector
import StatefulPipeline.Service
import StatefulPipeline.SortedMap
import StatefulPipeline.Toml.Document
import StatefulPipeline.Toml.Layout
import StatefulPipeline.Toml.Node
import StatefulPipeline.Toml.Number
import StatefulPipeline.Toml.Quoted
import StatefulPipeline.Toml.Written
import StatefulPipeline.Vocabulary
import StatefulPipeline.Proofs.CompiledRules
import StatefulPipeline.Proofs.RegistryRuns
import StatefulPipeline.Proofs.RegistryTables
import StatefulPipeline.Proofs.Binding
import StatefulPipeline.Proofs.StateTransfer
import StatefulPipeline.Proofs.ControllerRuns
import StatefulPipeline.Proofs.Ownership
import StatefulPipeline.Proofs.WordEncoding
import StatefulPipeline.Proofs.SelectorMeaning
import StatefulPipeline.Proofs.Installation
import StatefulPipeline.Proofs.Shadowing
import StatefulPipeline.Proofs.DeviceAutomata
import StatefulPipeline.Proofs.RegistryHistory
import StatefulPipeline.Proofs.QuotedText
import StatefulPipeline.Proofs.SchemaBuilding
import StatefulPipeline.Proofs.TomlLines
import StatefulPipeline.Proofs.ConfigRoundTrip
import StatefulPipeline.Proofs.ActionTable
import StatefulPipeline.Proofs.FirewallPhases
import StatefulPipeline.Proofs.JsonText
import StatefulPipeline.Proofs.ShownRules
import StatefulPipeline.Proofs.OutputFormat
import StatefulPipeline.Proofs.RuleConformance
import StatefulPipeline.Proofs.BindVerdicts
import StatefulPipeline.Proofs.OutputPorts
import StatefulPipeline.Proofs.IndependentBinds
import StatefulPipeline.Proofs.SelectorConflicts
import StatefulPipeline.Proofs.InstallReports
import StatefulPipeline.Proofs.RegisterBounds
import StatefulPipeline.Proofs.ConfigValidation
import StatefulPipeline.Proofs.DeclarationHistory
import StatefulPipeline.Proofs.EdgeOrder
import StatefulPipeline.Proofs.WholeInstalls
import StatefulPipeline.Proofs.BalancerTurns
import StatefulPipeline.Proofs.ConflictFreeRuns
import StatefulPipeline.Proofs.CompileConditions
import StatefulPipeline.Proofs.SignedReading
