import DeprecatedApi.Proofs.Discovery
import DeprecatedApi.Proofs.Preparation
import Mathlib.Algebra.Ring.Nat
import Mathlib.Data.Prod.Lex

/-!
# Analyses as unions

An analysis of an existing root always has a result, and the result is the ordered union
of what the single fact files give: nothing is lost, nothing comes twice, and findings at
the same position stay in the order of the fact files and their nodes. The log tells the
same story as the result.

* `Finding.key`: the position of a finding, by which findings are ordered.
* `Settings.value_analyze`, `Settings.events_analyze`: an analysis, once the fact files
  are found.
* `Result.IsUnion`, `Result.IsTold`: a result against its fact files and against a log.
* `analyze_is_ordered_union`: every analysis gives such a result and such a log.
-/

namespace DeprecatedApi

/-! ## The order of findings -/

/-- The position of a finding: its file, its line and its column, compared in this order. -/
def Finding.key (finding : Finding) : String ×ₗ ℕ ×ₗ ℕ :=
  toLex (finding.file, toLex (finding.line, finding.column))

/-- Findings are ordered by their positions. -/
theorem Finding.le_iff (a b : Finding) : Finding.le a b ↔ a.key ≤ b.key := by
  have hkey : a.key ≤ b.key ↔ a.file < b.file ∨ a.file = b.file ∧
      (a.line < b.line ∨ a.line = b.line ∧ a.column ≤ b.column) := by
    rw [key, key, Prod.Lex.toLex_le_toLex, Prod.Lex.toLex_le_toLex]
  rw [hkey, le]
  by_cases hfile : a.file = b.file
  · by_cases hline : a.line = b.line
    · simp [hfile, hline]
    · simp [hfile, hline]
  · simp [hfile]

/-! ## What fact files contribute -/

/-- What the facts about a source file contribute to an analysis. -/
def FactFile.contribution (rules : RuleSet) (severity : Severity) (unit : FactFile) :
    Contribution :=
  ⟨unit.nodes.length, findings rules severity unit⟩

/-- The facts that could be read and decoded, in the order of the fact files. -/
def Source.units (files : List Source) : List FactFile :=
  files.filterMap fun source => source.load.toOption

theorem Source.value_check (rules : RuleSet) (severity : Severity) (source : Source) :
    (source.check rules severity).value
      = source.load.toOption.map (FactFile.contribution rules severity) := by
  rw [check]
  cases source.load with
  | error error => rfl
  | ok unit => rfl

/-- The contributions to an analysis are those of the facts that could be decoded. -/
theorem Source.filterMap_value_check (rules : RuleSet) (severity : Severity)
    (files : List Source) :
    (files.map fun source => (source.check rules severity).value).filterMap id
      = (units files).map (FactFile.contribution rules severity) := by
  rw [List.filterMap_map, units, List.map_filterMap]
  exact List.filterMap_congr fun source _ => source.value_check rules severity

/-- A fact file is either decoded or not. -/
theorem Source.length_units_add (files : List Source) :
    (units files).length + files.countP (fun source => !source.load.isOk) = files.length := by
  have hdecoded : (units files).length = files.countP fun source => source.load.isOk := by
    rw [units, List.length_filterMap_eq_countP]
    refine List.countP_congr fun source _ => ?_
    cases source.load with
    | error error => simp [Except.toOption, Except.isOk, Except.toBool]
    | ok unit => simp [Except.toOption, Except.isOk, Except.toBool]
  rw [hdecoded, List.length_eq_countP_add_countP fun source => source.load.isOk]
  simp

theorem Contribution.totalNodes_map (rules : RuleSet) (severity : Severity)
    (units : List FactFile) :
    totalNodes (units.map (FactFile.contribution rules severity))
      = (units.map fun unit => unit.nodes.length).sum := by
  induction units with
  | nil => rfl
  | cons unit units ih => rw [List.map_cons, totalNodes, ih, List.map_cons, List.sum_cons]; rfl

/-! ## Analyses of the fact files that are found -/

namespace Settings

/-- The result of an analysis that found some fact files. -/
def resultOf (settings : Settings) (config : Option Config) (rules : RuleSet)
    (files : List Source) : Result :=
  .ofContributions rules (config.any Config.wantsJson)
    (files.map fun source => (source.check rules settings.severityOrStandard).value)

section Parts

variable (settings : Settings) (config : Option Config) (rules : RuleSet) (files : List Source)

theorem value_checkAll :
    (settings.checkAll config rules files).value = settings.resultOf config rules files := by
  simp only [checkAll, Logged.value_bind, Logged.value_pure, resultOf, List.map_map,
    Function.comp_def]

theorem events_checkAll :
    (settings.checkAll config rules files).events
      = (files.flatMap fun source => (source.check rules settings.severityOrStandard).events)
        ++ [(settings.resultOf config rules files).event] := by
  simp only [checkAll, Logged.events_bind, Logged.events_tell, Logged.events_pure, resultOf,
    List.flatMap_map, List.map_map, Function.comp_def, List.append_nil]

/-- The findings are the sorted findings of the decoded facts. -/
theorem findings_resultOf :
    (settings.resultOf config rules files).findings
      = ((Source.units files).flatMap (findings rules settings.severityOrStandard)).mergeSort
        Finding.le := by
  simp only [resultOf, Result.ofContributions, Source.filterMap_value_check, List.flatMap_map]
  rfl

/-- What is counted, by the decoded facts. -/
theorem stats_resultOf :
    (settings.resultOf config rules files).stats
      = { ruleCount := List.length rules
          filesAnalyzed := (Source.units files).length
          filesSkipped := files.countP fun source => !source.load.isOk
          nodesVisited := ((Source.units files).map fun unit => unit.nodes.length).sum } := by
  -- the skipped files are counted as a difference, which is that of the lengths
  have hlength := Source.length_units_add files
  simp only [resultOf, Result.ofContributions, Source.filterMap_value_check, List.length_map,
    Contribution.totalNodes_map]
  congr 1
  omega

end Parts

section Found

variable {settings : Settings} {ws : Workspace} {root : String} {target : FileTree}
  {files : List Source}

/-- The result of an analysis, once the fact files are found. -/
theorem value_analyze (hroot : ws.find root = .ok target)
    (hfiles : Discovery.discover root
      (settings.excludesUnder (settings.config ws root).value) target = .ok files) :
    (settings.analyze ws root).value = .ok (settings.resultOf (settings.config ws root).value
      (settings.loadRules ws root).value files) := by
  simp only [analyze, hroot, analyzeAt, Logged.value_bind, Logged.value_pure, hfiles,
    value_checkAll, loadRules]

/-- The log of an analysis, once the fact files are found. -/
theorem events_analyze (hroot : ws.find root = .ok target)
    (hfiles : Discovery.discover root
      (settings.excludesUnder (settings.config ws root).value) target = .ok files) :
    (settings.analyze ws root).events = (settings.loadRules ws root).events
      ++ (settings.checkAll (settings.config ws root).value (settings.loadRules ws root).value
        files).events := by
  simp only [analyze, hroot, analyzeAt, Logged.events_bind, Logged.value_bind,
    Logged.events_pure, hfiles, loadRules, List.append_assoc, List.append_nil]

end Found

/-- Before the first fact file, the configuration and the rules are told of. -/
theorem prepares_loadRules (settings : Settings) (ws : Workspace) (root : String) :
    (settings.loadRules ws root).Prepares :=
  Logged.prepares_bind (settings.prepares_config ws root)
    (settings.prepares_rulesUnder _ ws root)

end Settings

/-! ## Counting events -/

/-- Whether an event tells of a use of a deprecated API. -/
def Event.isUsage (event : Event) : Bool :=
  event.message = "deprecated API usage"

/-- Whether an event warns of a fact file that is skipped. -/
def Event.isSkip (event : Event) : Bool :=
  event.level = .warn && event.message = "skipping fact file"

/-- Events about configuration and rules tell neither of uses nor of skipped files. -/
theorem Event.not_counted_of_isPreparation {event : Event} (h : event.isPreparation) :
    ¬ event.isUsage ∧ ¬ event.isSkip := by
  cases event with
  | factFileSkipped error => cases h
  | usage owner member => cases h
  | analysisComplete rules files skipped findings => cases h
  | _ => exact ⟨by simp [isUsage, message], by simp [isSkip, message]⟩

theorem Source.countP_isUsage_check (rules : RuleSet) (severity : Severity) (source : Source) :
    (source.check rules severity).events.countP Event.isUsage
      = (source.load.toOption.map fun unit => (findings rules severity unit).length).getD 0 := by
  rw [check]
  cases source.load with
  | error error => rfl
  | ok unit =>
    -- the events of a decoded file are those of its findings
    show ((findings rules severity unit).map Finding.event ++ []).countP Event.isUsage = _
    rw [List.append_nil, List.countP_map]
    exact List.countP_eq_length.mpr fun finding _ => rfl

theorem Source.countP_isSkip_check (rules : RuleSet) (severity : Severity) (source : Source) :
    (source.check rules severity).events.countP Event.isSkip
      = if source.load.isOk then 0 else 1 := by
  rw [check]
  cases source.load with
  | error error => rfl
  | ok unit =>
    show ((findings rules severity unit).map Finding.event ++ []).countP Event.isSkip = 0
    rw [List.append_nil, List.countP_map]
    exact List.countP_eq_zero.mpr fun finding _ => by simp [Finding.event, Event.isSkip, Event.level]

section Checks

variable (rules : RuleSet) (severity : Severity) (files : List Source)

/-- While fact files are checked, every finding is told once. -/
theorem Source.countP_isUsage_flatMap :
    (files.flatMap fun source => (source.check rules severity).events).countP Event.isUsage
      = ((units files).flatMap (findings rules severity)).length := by
  induction files with
  | nil => rfl
  | cons source rest ih =>
    rw [List.flatMap_cons, List.countP_append, ih, countP_isUsage_check]
    simp only [units, List.filterMap_cons]
    cases source.load with
    | error error => simp [Except.toOption]
    | ok unit => simp [Except.toOption]

/-- While fact files are checked, every one that cannot be decoded is told once. -/
theorem Source.countP_isSkip_flatMap :
    (files.flatMap fun source => (source.check rules severity).events).countP Event.isSkip
      = files.countP fun source => !source.load.isOk := by
  induction files with
  | nil => rfl
  | cons source rest ih =>
    rw [List.flatMap_cons, List.countP_append, ih, countP_isSkip_check, List.countP_cons]
    cases source.load.isOk with
    | false => simp [Nat.add_comm]
    | true => simp

end Checks

/-! ## Unions -/

/-- The facts that reading and decoding the paths of some fact files gives, in their order. -/
def decodedUnits (ws : Workspace) (files : List Source) : List FactFile :=
  files.filterMap fun source => (FactFile.load ws source.path).toOption

/-- The findings of single fact files, one file after the other and node after node. -/
def findingsInTurn (ws : Workspace) (rules : RuleSet) (severity : Severity)
    (files : List Source) : List Finding :=
  (decodedUnits ws files).flatMap fun unit => (checkUnit rules severity unit).value

/-- A result is the ordered union of the checks of single fact files. -/
structure Result.IsUnion (ws : Workspace) (rules : RuleSet) (severity : Severity)
    (files : List Source) (result : Result) : Prop where
  /-- The findings are sorted by file, line and column. -/
  sorted : result.findings.Pairwise fun a b => a.key ≤ b.key
  /-- Nothing is lost, added or repeated. -/
  complete : result.findings.Perm (findingsInTurn ws rules severity files)
  /-- Findings at one position keep the order of the fact files and their nodes. -/
  stable : ∀ position, result.findings.filter (fun finding => finding.key = position)
    = (findingsInTurn ws rules severity files).filter fun finding => finding.key = position
  counted : result.stats.filesAnalyzed + result.stats.filesSkipped = files.length
  skipped : result.stats.filesSkipped
    = files.countP fun source => !(FactFile.load ws source.path).isOk
  nodes : result.stats.nodesVisited
    = ((decodedUnits ws files).map fun unit => unit.nodes.length).sum
  ruleCount : result.stats.ruleCount = List.length rules

/-- A log tells of every finding and of every fact file that was skipped, and ends with
the counts of the result. -/
structure Result.IsTold (result : Result) (events : List Event) : Prop where
  usages : events.countP Event.isUsage = result.findings.length
  skips : events.countP Event.isSkip = result.stats.filesSkipped
  last : ∃ event, events.getLast? = some event ∧ event.message = "analysis complete" ∧
    event.fields = [("rules", .count result.stats.ruleCount),
      ("files", .count result.stats.filesAnalyzed), ("skipped", .count result.stats.filesSkipped),
      ("findings", .count result.findings.length)]

/-- What the found fact files hold is what reading their paths gives. -/
theorem decodedUnits_sources {ws : Workspace} {root : String} {target : FileTree}
    (hwf : target.WellFormed) (hroot : ws.find root = .ok target) (excludes : List String) :
    decodedUnits ws (Discovery.sources root excludes target)
      = Source.units (Discovery.sources root excludes target) := by
  refine List.filterMap_congr fun source hsource => ?_
  rw [Discovery.load_of_mem_sources hwf hroot hsource]

/-- The result of the found fact files is their union. -/
theorem Settings.isUnion_resultOf (settings : Settings) (config : Option Config)
    (rules : RuleSet) {ws : Workspace} {root : String} {excludes : List String}
    {target : FileTree} (hwf : target.WellFormed) (hroot : ws.find root = .ok target) :
    (settings.resultOf config rules (Discovery.sources root excludes target)).IsUnion ws rules
      settings.severityOrStandard (Discovery.sources root excludes target) := by
  have hunits := decodedUnits_sources hwf hroot excludes
  have hturn : findingsInTurn ws rules settings.severityOrStandard
      (Discovery.sources root excludes target)
      = (Source.units (Discovery.sources root excludes target)).flatMap
        (findings rules settings.severityOrStandard) := by
    rw [findingsInTurn, hunits]
    rfl
  -- all fields are read off the sorted findings and the counts of the decoded facts
  have hfindings := settings.findings_resultOf config rules (Discovery.sources root excludes target)
  have hstats := settings.stats_resultOf config rules (Discovery.sources root excludes target)
  rw [← hturn] at hfindings
  refine ⟨?_, ?_, ?_, ?_, ?_, ?_, ?_⟩
  · rw [hfindings]
    exact StableSort.pairwise_key_mergeSort Finding.le_iff _
  · rw [hfindings]
    exact List.mergeSort_perm _ _
  · intro position
    rw [hfindings]
    exact StableSort.filter_key_mergeSort Finding.le_iff _ position
  · rw [hstats]
    exact Source.length_units_add _
  · rw [hstats]
    refine List.countP_congr fun source hsource => ?_
    rw [Discovery.load_of_mem_sources hwf hroot hsource]
  · rw [hstats, hunits]
  · rw [hstats]

/-- The log of the check of some fact files tells of the result. -/
theorem Settings.isTold_of_prepares (settings : Settings) (config : Option Config)
    (rules : RuleSet) (files : List Source) {before : List Event}
    (hbefore : ∀ event ∈ before, event.isPreparation) :
    (settings.resultOf config rules files).IsTold
      (before ++ (settings.checkAll config rules files).events) := by
  -- neither the events before nor the last one count
  have husage : before.countP Event.isUsage = 0 := by
    rw [List.countP_eq_zero]
    intro event h
    exact (Event.not_counted_of_isPreparation (hbefore event h)).1
  have hskip : before.countP Event.isSkip = 0 := by
    rw [List.countP_eq_zero]
    intro event h
    exact (Event.not_counted_of_isPreparation (hbefore event h)).2
  refine ⟨?_, ?_, ?_⟩
  · rw [events_checkAll, List.countP_append, List.countP_append, husage,
      Source.countP_isUsage_flatMap, findings_resultOf, List.length_mergeSort, Nat.zero_add]
    rfl
  · rw [events_checkAll, List.countP_append, List.countP_append, hskip,
      Source.countP_isSkip_flatMap, stats_resultOf, Nat.zero_add]
    rfl
  · refine ⟨(settings.resultOf config rules files).event, ?_, rfl, rfl⟩
    rw [events_checkAll, ← List.append_assoc, List.getLast?_concat]

/-- **Analyses are ordered unions**: the analysis of an existing root has a result, which
is the ordered union of the checks of the fact files found there, in the order of their
paths, and its log tells of just this result. -/
theorem analyze_is_ordered_union (settings : Settings) {ws : Workspace} {root : String}
    {target : FileTree} (hwf : ws.root.WellFormed) (hroot : ws.find root = .ok target)
    (hread : Discovery.AllReadable root target) :
    ∃ files result,
      Discovery.gather ws root (settings.excludesUnder (settings.config ws root).value)
        = .ok files ∧
      (settings.analyze ws root).value = .ok result ∧
      (files.Pairwise fun a b => Path.components a.path < Path.components b.path) ∧
      result.IsUnion ws (settings.loadRules ws root).value settings.severityOrStandard files ∧
      result.IsTold (settings.analyze ws root).events := by
  have htarget : target.WellFormed := hwf.get? (Workspace.get?_of_find hroot)
  have hfiles := Discovery.discover_of_allReadable htarget hread
    (settings.excludesUnder (settings.config ws root).value)
  refine ⟨_, _, Discovery.gather_of_allReadable htarget hroot hread _,
    Settings.value_analyze hroot hfiles, Discovery.pairwise_sources htarget,
    settings.isUnion_resultOf _ _ htarget hroot, ?_⟩
  rw [Settings.events_analyze hroot hfiles]
  exact settings.isTold_of_prepares _ _ _ (settings.prepares_loadRules ws root)

/-- Facts about one construction of an object. -/
def tieFacts : String :=
  "\x7b\"file\":\"A.java\",\"nodes\":[\x7b\"line\":1,\"kind\":\"construction\","
    ++ "\"symbol\":\x7b\"name\":\"B\",\"kind\":\"method\",\"owner\":\x7b\"fqcn\":\"a.B\"\x7d\x7d\x7d]\x7d"

/-- A directory with two fact files about the same construction and one that is no text. -/
def tieTarget : FileTree :=
  .dir [("b.facts.json", .file tieFacts.toUTF8), ("a.facts.json", .file tieFacts.toUTF8),
    ("c.facts.json", .file ⟨#[0xff]⟩)]

/-- A file with one rule, for the construction in `tieFacts`, beside `tieTarget`. -/
def tieWorkspace : Workspace :=
  ⟨.dir [("rules.json", .file "[\x7b\"fqcn\":\"a.B\",\"member\":\"<init>\"\x7d]".toUTF8),
    ("w", tieTarget)], []⟩

/-- Settings that take the rules from the file. -/
def tieSettings : Settings :=
  .ofSteps [.rulesFile "rules.json"]

theorem tieWorkspace_wellFormed : tieWorkspace.root.WellFormed := by
  have htarget : tieTarget.WellFormed := by
    refine .dir (by decide) (by decide) ?_
    simp only [List.forall_mem_cons, List.not_mem_nil, IsEmpty.forall_iff, implies_true, and_true]
    exact ⟨.file _, .file _, .file _⟩
  refine .dir (by decide) (by decide) ?_
  simp only [List.forall_mem_cons, List.not_mem_nil, IsEmpty.forall_iff, implies_true, and_true]
  exact ⟨.file _, htarget⟩

theorem tieTarget_allReadable : Discovery.AllReadable "w" tieTarget := by
  refine Discovery.allReadable_dir (by decide) ?_
  simp only [List.forall_mem_cons, List.not_mem_nil, IsEmpty.forall_iff, implies_true, and_true]
  exact ⟨Discovery.allReadable_file _ _, Discovery.allReadable_file _ _,
    Discovery.allReadable_file _ _⟩

/-- Two files that tell of the same position, beside one that is skipped. -/
theorem analyze_is_ordered_union_of_tie :
    tieWorkspace.root.WellFormed ∧ tieWorkspace.find "w" = .ok tieTarget ∧
      Discovery.AllReadable "w" tieTarget ∧
      ∃ files result,
        Discovery.gather tieWorkspace "w"
          (tieSettings.excludesUnder (tieSettings.config tieWorkspace "w").value) = .ok files ∧
        (tieSettings.analyze tieWorkspace "w").value = .ok result ∧
        (files.Pairwise fun a b => Path.components a.path < Path.components b.path) ∧
        result.IsUnion tieWorkspace (tieSettings.loadRules tieWorkspace "w").value
          tieSettings.severityOrStandard files ∧
        result.IsTold (tieSettings.analyze tieWorkspace "w").events :=
  ⟨tieWorkspace_wellFormed, rfl, tieTarget_allReadable,
    analyze_is_ordered_union tieSettings tieWorkspace_wellFormed rfl tieTarget_allReadable⟩

end DeprecatedApi
