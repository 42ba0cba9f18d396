import DeprecatedApi.Check
import DeprecatedApi.Json.Decode
import DeprecatedApi.Json.Parser
import DeprecatedApi.Json.Printer

/-!
# Reports

Findings are reported as plain text, one line each, or as a JSON document.

* `Finding.plain`, `plainReport`: plain text.
* `Finding.toJson`, `reportDocument`, `jsonReport`: the JSON document and its text.
* `Finding.ofJson?`, `Finding.parseList?`: findings from JSON.
-/

namespace DeprecatedApi

/-! ## Plain text -/

/-- A finding on one line: position, severity, message, and the key of the check. -/
def Finding.plain (f : Finding) : String :=
  f.file ++ ":" ++ toString f.line ++ ":" ++ toString f.column ++ ": " ++ f.severity.name
    ++ ": " ++ f.message ++ " [" ++ f.ruleKey ++ "]"

/-- Findings as plain text. -/
def plainReport (found : List Finding) : String :=
  if found.isEmpty then "No deprecated API usages found.\n"
  else
    "DEPRECATED API USAGES (" ++ toString found.length ++ "):\n"
      ++ String.join (found.map fun f => f.plain ++ "\n")

/-! ## JSON -/

/-- A finding with its fields in alphabetical order. -/
def Finding.toJson (f : Finding) : Json :=
  .ofFields
    [("column", .ofNat f.column), ("file", .string f.file), ("line", .ofNat f.line),
     ("member", .string f.member), ("message", .string f.message),
     ("owner_fqcn", .string f.owner), ("rule_key", .string f.ruleKey),
     ("severity", .string f.severity.name)]

/-- The document of a report: the number of findings, the findings, and the check
they come from. -/
def reportDocument (found : List Finding) : Json :=
  .ofFields
    [("count", .ofNat found.length), ("findings", .array (found.map Finding.toJson)),
     ("rule", .ofFields [("key", .string ruleKey), ("name", .string ruleName),
       ("repository", .string repositoryKey)])]

/-- The text of a JSON report. -/
def jsonReport (found : List Finding) : String :=
  (reportDocument found).pretty ++ "\n"

namespace Finding

/-- The fields of a finding, in order. -/
def fieldNames : List String :=
  ["file", "line", "column", "rule_key", "severity", "message", "owner_fqcn", "member"]

/-- The severities by name. -/
def severityTable : List (String × Severity) :=
  Severity.all.map fun s => (s.name, s)

/-- Decodes a finding. -/
def ofJson? (j : Json) : Option Finding := do
  let r ← j.record? fieldNames
  return {
    file := ← r.need? "file" Json.text?
    line := ← r.need? "line" Json.count?
    column := ← r.need? "column" Json.count?
    ruleKey := ← r.need? "rule_key" Json.text?
    severity := ← r.need? "severity" (Json.choice? Json.isNull severityTable)
    message := ← r.need? "message" Json.text?
    owner := ← r.need? "owner_fqcn" Json.text?
    member := ← r.need? "member" Json.text? }

/-- The findings of a text. -/
def parseList? (text : String) : Option (List Finding) :=
  Json.parse? text >>= Json.list? ofJson?

end Finding

end DeprecatedApi
