import DeprecatedApi.Text.Blank
import DeprecatedApi.Descriptor.Basic
import DeprecatedApi.Descriptor.Parser
import DeprecatedApi.Descriptor.TypeName
import DeprecatedApi.Descriptor.ArgumentList
import DeprecatedApi.Json.Basic
import DeprecatedApi.Json.Lexer
import DeprecatedApi.Json.Parser
import DeprecatedApi.Json.Printer
import DeprecatedApi.Json.Decode
import DeprecatedApi.Error
import DeprecatedApi.Log
import DeprecatedApi.Facts.Basic
import DeprecatedApi.Reference
import DeprecatedApi.Rule.Basic
import DeprecatedApi.Rule.Loading
import DeprecatedApi.Check
import DeprecatedApi.Facts.Codec
import DeprecatedApi.Report
import DeprecatedApi.Assoc
import DeprecatedApi.Path
import DeprecatedApi.FileTree
import DeprecatedApi.Workspace
import DeprecatedApi.Discovery
import DeprecatedApi.Toml.Basic
import DeprecatedApi.Toml.Word
import DeprecatedApi.Toml.Quoted
import DeprecatedApi.Toml.Parser
import DeprecatedApi.Config
import DeprecatedApi.Analysis
import DeprecatedApi.Capacity
import DeprecatedApi.CommandLine
import DeprecatedApi.Main
import DeprecatedApi.Proofs.Trimming
import DeprecatedApi.Proofs.TypeNames
import DeprecatedApi.Proofs.UniqueDecoding
import DeprecatedApi.Proofs.DescriptorGrammar
import DeprecatedApi.Proofs.ArgumentLists
import DeprecatedApi.Proofs.RuleLoading
import DeprecatedApi.Proofs.OverloadSelection
import DeprecatedApi.Proofs.StableSort
import DeprecatedApi.Proofs.Paths
import DeprecatedApi.Proofs.Discovery
import DeprecatedApi.Proofs.Preparation
import DeprecatedApi.Proofs.AnalysisUnion
import DeprecatedApi.Proofs.ContentChange
import DeprecatedApi.Proofs.Containment
import DeprecatedApi.Proofs.UsageReports
import DeprecatedApi.Proofs.NameableTypes
import DeprecatedApi.Proofs.DeadSignatures
import DeprecatedApi.Proofs.JsonNumbers
import DeprecatedApi.Proofs.JsonTokens
import DeprecatedApi.Proofs.JsonRoundTrip
import DeprecatedApi.Proofs.CopiedRules
import DeprecatedApi.Proofs.RecordForms
import DeprecatedApi.Proofs.FactForms
import DeprecatedApi.Proofs.FactPresentation
import DeprecatedApi.Proofs.ReportRoundTrip
import DeprecatedApi.Proofs.RuleOrder
import DeprecatedApi.Proofs.ExactDiscovery
import DeprecatedApi.Proofs.FileChanges
import DeprecatedApi.Proofs.RuleSources
import DeprecatedApi.Proofs.TopLevelCuts
import DeprecatedApi.Proofs.ArgumentPieces
import DeprecatedApi.Proofs.EmittedDescriptors
import DeprecatedApi.Proofs.TypeArguments
import DeprecatedApi.Proofs.FirstBadEntry
import DeprecatedApi.Proofs.RestrictedRules
import DeprecatedApi.Proofs.NestedSignatures
import DeprecatedApi.Proofs.DescriptorLanguage
import DeprecatedApi.Proofs.ClassNames
import DeprecatedApi.Proofs.ArrayDepth
import DeprecatedApi.Proofs.ReloadedRules
import DeprecatedApi.Proofs.ExcludedNames
import DeprecatedApi.Proofs.SettingSteps
import DeprecatedApi.Proofs.Breakdowns
import DeprecatedApi.Proofs.ProgramRuns
