import DeprecatedApi.Report
import DeprecatedApi.Proofs.FactForms
import DeprecatedApi.Proofs.JsonRoundTrip

/-!
# Reading reports

A report in JSON holds all that was found: whoever reads its text gets back the findings and
their number. So reports of different findings differ.

* `Finding.IsBounded`: findings at positions that a report can hold.
* `Finding.ofJson?_toJson`: a written finding is read back.
* `parse?_jsonReport`: the text of a report is its document.
* `jsonReport_loses_nothing`: from the text of a report to the findings.
-/

namespace DeprecatedApi

/-! ## Findings -/

namespace Finding

/-- Line and column have at most 64 bits. -/
structure IsBounded (f : Finding) : Prop where
  line : f.line ≤ Number.maxCount
  column : f.column ≤ Number.maxCount

/-- The name of a severity stands for this severity. -/
theorem choice?_severity (severity : Severity) :
    Json.choice? Json.isNull severityTable (.string severity.name) = some severity := by
  cases severity with
  | info => rfl
  | minor => rfl
  | major => rfl
  | critical => rfl

/-- A written finding is read back, though its fields are written in another order than they
are asked for. -/
theorem ofJson?_toJson {f : Finding} (h : f.IsBounded) : ofJson? f.toJson = some f := by
  have hrecord : f.toJson.record? fieldNames = some
      [("column", .ofNat f.column), ("file", .string f.file), ("line", .ofNat f.line),
       ("member", .string f.member), ("message", .string f.message),
       ("owner_fqcn", .string f.owner), ("rule_key", .string f.ruleKey),
       ("severity", .string f.severity.name)] :=
    rfl
  simp [ofJson?, hrecord, Record.need?, List.lookup_cons, Json.text?, choice?_severity,
    Json.count?_ofNat h.line, Json.count?_ofNat h.column]

theorem isWritable_toJson (f : Finding) : f.toJson.IsWritable :=
  .ofFields ⟨.ofNat _, .string _, .ofNat _, .string _, .string _, .string _, .string _,
    .string _⟩

end Finding

theorem list?_map_toJson {found : List Finding} (h : ∀ f ∈ found, f.IsBounded) :
    Json.list? Finding.ofJson? (.array (found.map Finding.toJson)) = some found := by
  have hwrites : Json.WritesList (fun f j => j = Finding.toJson f) found
      (.array (found.map Finding.toJson)) :=
    .array (List.forall₂_map_right_iff.mpr (List.forall₂_same.mpr fun f _ => rfl))
  refine Json.list?_of_writesList hwrites ?_
  rintro f hf _ rfl
  exact Finding.ofJson?_toJson (h f hf)

/-! ## Reports -/

theorem isWritable_reportDocument (found : List Finding) :
    (reportDocument found).IsWritable :=
  .ofFields ⟨.ofNat _, .array (List.forall_mem_map.mpr fun f _ => f.isWritable_toJson),
    .ofFields ⟨.string _, .string _, .string _⟩⟩

/-- The text of a report is one JSON value, its document. -/
theorem parse?_jsonReport (found : List Finding) :
    Json.parse? (jsonReport found) = some (reportDocument found) :=
  Json.parse?_pretty_newline (isWritable_reportDocument found)

/-- The members of the document of a report: its number of findings, its findings, and the
check. -/
def reportMembers (found : List Finding) : List (StringValue × Json) :=
  [(some "count", .ofNat found.length), (some "findings", .array (found.map Finding.toJson)),
    (some "rule", .ofFields [("key", .string ruleKey), ("name", .string ruleName),
      ("repository", .string repositoryKey)])]

theorem reportDocument_eq (found : List Finding) :
    reportDocument found = .object (reportMembers found) :=
  rfl

/-- **A report loses nothing.** The text of a report is one JSON object. Its only `count` is the
number of findings, and its only `findings` are decoded as the findings, in their order. So
other findings have another report. -/
theorem jsonReport_loses_nothing {found : List Finding} (h : ∀ f ∈ found, f.IsBounded) :
    (∃ members items, Json.parse? (jsonReport found) = some (.object members) ∧
      Record.valuesOf "count" members = [.ofNat found.length] ∧
      Record.valuesOf "findings" members = [.array items] ∧
      Json.list? Finding.ofJson? (.array items) = some found) ∧
    ∀ other : List Finding, (∀ f ∈ other, f.IsBounded) → other ≠ found →
      jsonReport other ≠ jsonReport found := by
  refine ⟨⟨reportMembers found, _, ?_, rfl, rfl, list?_map_toJson h⟩, ?_⟩
  · rw [parse?_jsonReport, reportDocument_eq]
  · intro other hother hne hsame
    have hdocument : reportDocument other = reportDocument found := by
      have hparse := parse?_jsonReport other
      rw [hsame, parse?_jsonReport found] at hparse
      exact (Option.some.inj hparse).symm
    have hfindings := congrArg (Record.valuesOf "findings")
      (Json.object.inj (hdocument : Json.object (reportMembers other) = .object _))
    have hitems : Json.array (other.map Finding.toJson) = .array (found.map Finding.toJson) :=
      List.head_eq_of_cons_eq hfindings
    have hread := list?_map_toJson hother
    rw [hitems, list?_map_toJson h] at hread
    exact hne (Option.some.inj hread).symm

/-- A finding with all kinds of characters that are written in a special way, and one beside it
at the last line of all. -/
def oddFindings : List Finding :=
  [⟨"a\"b\\c.java", 3, 0, ruleKey, .critical, "tab\t, bell\x07, line\n, é, 漢, 😀", "a.B", "<init>"⟩,
    ⟨"", Number.maxCount, Number.maxCount, "", .info, "\x7f/\x08\x0c\r", "", ""⟩]

/-- Such findings are read back, and their report is not that of the first of them alone. -/
theorem jsonReport_of_oddFindings :
    (∃ members items, Json.parse? (jsonReport oddFindings) = some (.object members) ∧
      Record.valuesOf "count" members = [.ofNat 2] ∧
      Record.valuesOf "findings" members = [.array items] ∧
      Json.list? Finding.ofJson? (.array items) = some oddFindings) ∧
    jsonReport (oddFindings.take 1) ≠ jsonReport oddFindings := by
  have hbounded : ∀ f ∈ oddFindings, f.IsBounded := by
    rintro f hf
    rcases List.mem_pair.mp hf with rfl | rfl
    · exact ⟨by decide, by decide⟩
    · exact ⟨by decide, by decide⟩
  obtain ⟨hread, hother⟩ := jsonReport_loses_nothing hbounded
  refine ⟨hread, hother _ (fun f hf => hbounded f (List.mem_of_mem_take hf)) ?_⟩
  decide

end DeprecatedApi
