import DeprecatedApi.Check
import DeprecatedApi.Config
import DeprecatedApi.Discovery
import DeprecatedApi.Facts.Codec
import DeprecatedApi.Rule.Loading

/-!
# Analyses

An analysis takes the rules from its settings or from the configuration at its
root, checks every fact file at the root against them, and collects the findings. A
file that cannot be used is skipped, and counted.

* `Setting`, `Settings`: how an analysis is set up.
* `Settings.loadRules`: the rules of an analysis.
* `Settings.analyze`: an analysis.
* `AnalysisFault`: why it has no result.
-/

namespace DeprecatedApi

/-! ## Settings -/

/-- How an analysis is set up. -/
structure Settings where
  /-- The rules as text; they go before all others. -/
  rulesText : Option String
  /-- A file with rules; it goes before the configuration. -/
  rulesFile : Option String
  /-- Whether to look for a configuration at the root. -/
  useConfig : Bool
  /-- Names of directories to pass over. -/
  excludes : List String
  /-- The severity of findings. -/
  severity : Option Severity
  deriving DecidableEq, Repr

/-- A step in setting up an analysis. -/
inductive Setting where
  | rulesText (text : String)
  | rulesFile (path : String)
  | useConfig (enabled : Bool)
  | excludeDirs (names : List String)
  | severity (severity : Severity)
  deriving DecidableEq, Repr

namespace Settings

/-- The settings to begin with. -/
def standard : Settings :=
  ⟨none, none, true, [], none⟩

/-- The effect of a step: it replaces what was set before, but excluded directories
add up. -/
def apply (settings : Settings) : Setting → Settings
  | .rulesText text => { settings with rulesText := some text }
  | .rulesFile path => { settings with rulesFile := some path }
  | .useConfig enabled => { settings with useConfig := enabled }
  | .excludeDirs names => { settings with excludes := settings.excludes ++ names }
  | .severity severity => { settings with severity := some severity }

/-- The settings after some steps. -/
def ofSteps (steps : List Setting) : Settings :=
  steps.foldl apply standard

/-! ## Rules -/

/-- The configuration of an analysis. One that cannot be used is ignored. -/
def config (settings : Settings) (ws : Workspace) (root : String) : Logged (Option Config) :=
  if settings.useConfig && ws.isDir root then
    match Config.load ws root with
    | .ok config => pure config
    | .error error => do
      Logged.tell (.configIgnored error)
      return none
  else pure none

/-- The text of the rules, from the first source that is set. -/
def rulesSource (settings : Settings) (config : Option Config) (ws : Workspace)
    (root : String) : Logged (Option String) :=
  match settings.rulesText, settings.rulesFile, config with
  | some text, _, _ => pure (some text)
  | none, some file, _ =>
    match ws.readText file with
    | .ok text => pure (some text)
    | .error fault => do
      Logged.tell (.rulesFileUnreadable file fault.message)
      return none
  | none, none, some config => config.rulesText ws root
  | none, none, none => pure none

/-- The rules under a configuration. -/
def rulesUnder (settings : Settings) (config : Option Config) (ws : Workspace)
    (root : String) : Logged RuleSet := do
  RuleSet.parseOrEmpty (← settings.rulesSource config ws root)

/-- The rules of an analysis. -/
def loadRules (settings : Settings) (ws : Workspace) (root : String) : Logged RuleSet := do
  settings.rulesUnder (← settings.config ws root) ws root

/-- The names of directories that an analysis passes over. -/
def excludesUnder (settings : Settings) (config : Option Config) : List String :=
  settings.excludes ++ (config.map Config.ignored).getD []

/-- The severity of the findings. -/
def severityOrStandard (settings : Settings) : Severity :=
  settings.severity.getD .standard

end Settings

/-! ## Fact files -/

/-- The text of a fact file, if it can be read at its path. -/
def Source.text (source : Source) : Except ReadFault String :=
  match ReadFault.ofPath? source.path with
  | some fault => .error fault
  | none => Workspace.decode source.content

/-- The facts of a fact file. -/
def Source.load (source : Source) : Except Error FactFile :=
  match source.text with
  | .error fault => .error (.io source.path fault.message)
  | .ok text => FactFile.parse source.path text

/-- The facts of the file at a path. -/
def FactFile.load (ws : Workspace) (path : String) : Except Error FactFile :=
  match ws.readText path with
  | .error fault => .error (.io path fault.message)
  | .ok text => FactFile.parse path text

/-- What a fact file contributes to an analysis. -/
structure Contribution where
  nodes : Nat
  findings : List Finding
  deriving DecidableEq, Repr

/-- The number of nodes of all contributions. -/
def Contribution.totalNodes : List Contribution → Nat
  | [] => 0
  | first :: rest => first.nodes + totalNodes rest

/-- Checks a fact file. One that cannot be used is skipped. -/
def Source.check (rules : RuleSet) (severity : Severity) (source : Source) :
    Logged (Option Contribution) :=
  match source.load with
  | .error error => do
    Logged.tell (.factFileSkipped error)
    return none
  | .ok unit => do
    let found ← checkUnit rules severity unit
    return some ⟨unit.nodes.length, found⟩

/-! ## Results -/

/-- What was counted during an analysis. -/
structure Stats where
  ruleCount : Nat
  filesAnalyzed : Nat
  filesSkipped : Nat
  nodesVisited : Nat
  deriving DecidableEq, Repr

/-- The result of an analysis. -/
structure Result where
  /-- The findings, by file, line and column. -/
  findings : List Finding
  stats : Stats
  /-- Whether the configuration asks for a report in JSON. -/
  preferJson : Bool
  deriving DecidableEq, Repr

/-- The order of findings. -/
def Finding.le (a b : Finding) : Bool :=
  if a.file = b.file then
    if a.line = b.line then a.column ≤ b.column else a.line < b.line
  else a.file < b.file

/-- The result of what the fact files contribute, in their order. Findings at the same
position keep that order. -/
def Result.ofContributions (rules : RuleSet) (preferJson : Bool)
    (outcomes : List (Option Contribution)) : Result :=
  let used := outcomes.filterMap id
  { findings := (used.flatMap Contribution.findings).mergeSort Finding.le
    stats :=
      { ruleCount := List.length rules
        filesAnalyzed := used.length
        filesSkipped := outcomes.length - used.length
        nodesVisited := Contribution.totalNodes used }
    preferJson }

/-- The last event of an analysis. -/
def Result.event (result : Result) : Event :=
  .analysisComplete result.stats.ruleCount result.stats.filesAnalyzed
    result.stats.filesSkipped result.findings.length

/-- Why an analysis has no result. -/
inductive AnalysisFault where
  /-- Nothing stands at the root. -/
  | missing (root : String)
  /-- A directory at the root could not be read. -/
  | unreadable (root : String) (fault : Discovery.Fault)
  deriving DecidableEq, Repr

/-- What a fault is called, and what its causes are called, one after the other. -/
def AnalysisFault.messages : AnalysisFault → List String
  | .missing root => [(Error.invalidArgument ("path does not exist: " ++ root)).message]
  | .unreadable root fault =>
    ["Failed to gather fact files", Discovery.failure root, fault.message,
     fault.cause.message]

namespace Settings

/-- Checks fact files, and tells of the result. -/
def checkAll (settings : Settings) (config : Option Config) (rules : RuleSet)
    (sources : List Source) : Logged Result := do
  let checked := sources.map (Source.check rules settings.severityOrStandard)
  let outcomes ← (⟨checked.map Logged.value, checked.flatMap Logged.events⟩ : Logged _)
  let result := Result.ofContributions rules (config.any Config.wantsJson) outcomes
  Logged.tell result.event
  return result

/-- Analyzes what stands at the root. -/
def analyzeAt (settings : Settings) (ws : Workspace) (root : String) (target : FileTree) :
    Logged (Except AnalysisFault Result) := do
  let config ← settings.config ws root
  let rules ← settings.rulesUnder config ws root
  match Discovery.discover root (settings.excludesUnder config) target with
  | .error fault => return .error (.unreadable root fault)
  | .ok sources => return .ok (← settings.checkAll config rules sources)

/-- Analyzes the fact files at a root. -/
def analyze (settings : Settings) (ws : Workspace) (root : String) :
    Logged (Except AnalysisFault Result) :=
  match ws.find root with
  | .error _ => pure (.error (.missing root))
  | .ok target => settings.analyzeAt ws root target

end Settings

end DeprecatedApi
