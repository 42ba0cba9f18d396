import DeprecatedApi.Log
import DeprecatedApi.Rule.Basic

/-!
# Checking facts against rules

* `Severity`, `Finding`: a reported use of a deprecated member.
* `checkNode`: the rule that a node breaks.
* `checkUnit`: the findings of a fact file, in the order of its nodes.
-/

namespace DeprecatedApi

/-- How bad a finding is. -/
inductive Severity where
  | info
  | minor
  | major
  | critical
  deriving DecidableEq, Repr

namespace Severity

/-- All severities. -/
def all : List Severity :=
  [.info, .minor, .major, .critical]

/-- The name of a severity. -/
def name : Severity → String
  | .info => "info"
  | .minor => "minor"
  | .major => "major"
  | .critical => "critical"

/-- The severity of a name. -/
def ofName? (name : String) : Option Severity :=
  all.find? fun s => s.name == name

/-- The severity of findings unless another is asked for. -/
def standard : Severity :=
  .minor

end Severity

/-! ## The check -/

/-- The collection of checks that this one belongs to. -/
def repositoryKey : String :=
  "customdeprecation"

/-- The key of the check. -/
def ruleKey : String :=
  "CustomDeprecation"

/-- The title of the check. -/
def ruleName : String :=
  "Custom deprecated API should not be used"

/-- A reported use of a deprecated member. -/
structure Finding where
  file : String
  line : Nat
  column : Nat
  ruleKey : String
  severity : Severity
  message : String
  owner : String
  member : String
  deriving DecidableEq, Repr

/-- The rule that a node breaks. -/
def brokenRule? (rules : RuleSet) (shape : Shape) : Option Rule :=
  shape.reference?.bind rules.firstMatch?

/-- What users are told about a node. -/
def checkNode (rules : RuleSet) (shape : Shape) : Option String :=
  (brokenRule? rules shape).map Rule.message

/-- The finding of a node that breaks a rule. -/
def Node.finding (node : Node) (file : String) (severity : Severity) (rule : Rule) : Finding :=
  ⟨file, node.line, node.column, ruleKey, severity, rule.message, rule.owner, rule.member⟩

/-- Checks one node. -/
def Node.check (node : Node) (file : String) (severity : Severity) (rules : RuleSet) :
    Option Finding :=
  (brokenRule? rules node.shape).map (node.finding file severity)

/-- The event of a finding. -/
def Finding.event (finding : Finding) : Event :=
  .usage finding.owner finding.member

/-- The findings of a fact file. -/
def findings (rules : RuleSet) (severity : Severity) (unit : FactFile) : List Finding :=
  unit.nodes.filterMap fun node => node.check unit.file severity rules

/-- Checks a fact file, and tells of every use. -/
def checkUnit (rules : RuleSet) (severity : Severity) (unit : FactFile) :
    Logged (List Finding) :=
  let found := findings rules severity unit
  ⟨found, found.map Finding.event⟩

end DeprecatedApi
