import DeprecatedApi.Proofs.AnalysisUnion
import DeprecatedApi.Proofs.ContentChange

/-!
# Containment of bad input

An analysis of an existing root never fails, whatever the files hold. If a fact file that
could be decoded gets content that cannot be decoded, then the configuration and the rules
stay what they are, and the result loses what this file contributed and nothing else.

* `Settings.rulesPath?`: the file that the rules are read from.
* `Workspace.SamePlace`: two paths to the same file.
* `attributedFindings`: the findings of an analysis, each with its fact file.
* `Result.IsWithout`: a result that lacks what one fact file contributed.
* `bad_input_is_contained`: analyses do not fail, and a fact file that is spoiled takes
  away only what it contributed.
-/

namespace DeprecatedApi

/-! ## Configuration and rules -/

/-- The path of the file that the rules are read from, if they are read from a file. -/
def Settings.rulesPath? (settings : Settings) (config : Option Config) (root : String) :
    Option String :=
  match settings.rulesText, settings.rulesFile, config with
  | some _, _, _ => none
  | none, some file, _ => some file
  | none, none, some config =>
    match config.deprecatedApis with
    | some _ => none
    | none => config.deprecatedApisFile.map (Path.join root)
  | none, none, none => none

/-- Two paths lead to the same file or directory. -/
def Workspace.SamePlace (ws : Workspace) (path other : String) : Prop :=
  ws.isPresent path ∧ ws.isPresent other ∧ ws.locate path = ws.locate other

/-- The source of the rules depends on the file that they are read from only. -/
theorem Settings.rulesSource_congr (settings : Settings) (config : Option Config) {root : String}
    {ws ws' : Workspace} (h : ∀ path, settings.rulesPath? config root = some path →
      ws'.readText path = ws.readText path) :
    settings.rulesSource config ws' root = settings.rulesSource config ws root := by
  obtain ⟨rulesText, rulesFile, useConfig, excludes, severity⟩ := settings
  cases rulesText with
  | some text => rfl
  | none =>
    cases rulesFile with
    | some file =>
      simp only [rulesSource]
      rw [h file rfl]
    | none =>
      cases config with
      | none => rfl
      | some config =>
        obtain ⟨deprecatedApis, deprecatedApisFile, ignore, output⟩ := config
        cases deprecatedApis with
        | some text => rfl
        | none =>
          cases deprecatedApisFile with
          | none => rfl
          | some file =>
            simp only [rulesSource, Config.rulesText]
            rw [h (Path.join root file) rfl]

section Change

variable {ws : Workspace} {place : List String} {old : ByteArray}

/-- A change of content outside of the configuration file does not change the configuration. -/
theorem Settings.config_withContent (settings : Settings) {root : String}
    (h : ws.root.get? place = some (.file old)) (new : ByteArray)
    (hother : ws.isDir root → ws.locate (Config.path root) ≠ place) :
    settings.config (ws.withContent place new) root = settings.config ws root := by
  rw [config, config, Workspace.isDir_withContent h]
  by_cases hdir : ws.isDir root
  · have hload : Config.load (ws.withContent place new) root = Config.load ws root := by
      rw [Config.load, Config.load, Workspace.isPresent_withContent h,
        Workspace.readText_withContent h new fun _ => hother hdir]
    rw [hload]
  · simp [hdir]

/-- A change of content outside of the rule file does not change the rules. -/
theorem Settings.rulesUnder_withContent (settings : Settings) (config : Option Config)
    {root : String} (h : ws.root.get? place = some (.file old)) (new : ByteArray)
    (hother : ∀ path, settings.rulesPath? config root = some path → ws.isPresent path →
      ws.locate path ≠ place) :
    settings.rulesUnder config (ws.withContent place new) root
      = settings.rulesUnder config ws root := by
  have hsource := settings.rulesSource_congr config fun path hpath =>
    Workspace.readText_withContent h new (hother path hpath)
  rw [rulesUnder, rulesUnder, hsource]

/-- A change of content outside of the configuration file and the rule file does not
change the rules. -/
theorem Settings.loadRules_withContent (settings : Settings) {root : String}
    (h : ws.root.get? place = some (.file old)) (new : ByteArray)
    (hconfig : ws.isDir root → ws.locate (Config.path root) ≠ place)
    (hrules : ∀ path, settings.rulesPath? (settings.config ws root).value root = some path →
      ws.isPresent path → ws.locate path ≠ place) :
    (settings.loadRules (ws.withContent place new) root).value
      = (settings.loadRules ws root).value := by
  rw [loadRules, loadRules, Logged.value_bind, Logged.value_bind,
    settings.config_withContent h new hconfig, settings.rulesUnder_withContent _ h new hrules]

end Change

/-! ## Findings and their fact files -/

/-- The findings of what was decoded at a path, each with the path. -/
def attributed (rules : RuleSet) (severity : Severity) (path : String) :
    Except Error FactFile → List (String × Finding)
  | .error _ => []
  | .ok unit => (checkUnit rules severity unit).value.map fun finding => (path, finding)

/-- The findings of an analysis in their order, each with the path of its fact file. -/
def attributedFindings (ws : Workspace) (rules : RuleSet) (severity : Severity)
    (files : List Source) : List (String × Finding) :=
  (files.flatMap fun source =>
    attributed rules severity source.path (FactFile.load ws source.path)).mergeSort
      fun a b => Finding.le a.2 b.2

/-- The findings of fact files, one file after the other, each with the path of its file. -/
def Source.attributedInTurn (rules : RuleSet) (severity : Severity) (files : List Source) :
    List (String × Finding) :=
  files.flatMap fun source => attributed rules severity source.path source.load

section Attribution

variable {rules : RuleSet} {severity : Severity}

theorem fst_of_mem_attributed {path : String} {loaded : Except Error FactFile}
    {a : String × Finding} (h : a ∈ attributed rules severity path loaded) : a.1 = path := by
  cases loaded with
  | error error => cases h
  | ok unit =>
    obtain ⟨finding, -, rfl⟩ := List.mem_map.mp h
    rfl

theorem Source.attributedInTurn_cons (source : Source) (rest : List Source) :
    attributedInTurn rules severity (source :: rest)
      = attributed rules severity source.path source.load
        ++ attributedInTurn rules severity rest :=
  List.flatMap_cons

theorem Source.map_snd_attributedInTurn (files : List Source) :
    (attributedInTurn rules severity files).map Prod.snd
      = (units files).flatMap (findings rules severity) := by
  induction files with
  | nil => rfl
  | cons source rest ih =>
    rw [attributedInTurn_cons, List.map_append, ih]
    simp only [units, List.filterMap_cons]
    cases source.load with
    | error error => rfl
    | ok unit => simp [attributed, checkUnit, Except.toOption, Function.comp_def]

/-- Choosing findings by the paths of their files is choosing files. -/
theorem Source.filter_attributedInTurn (p : String → Bool) (files : List Source) :
    (attributedInTurn rules severity files).filter (fun a => p a.1)
      = attributedInTurn rules severity (files.filter fun source => p source.path) := by
  induction files with
  | nil => rfl
  | cons source rest ih =>
    rw [attributedInTurn_cons, List.filter_append, ih, List.filter_cons]
    by_cases hp : p source.path
    · have hkept : (attributed rules severity source.path source.load).filter (fun a => p a.1)
          = attributed rules severity source.path source.load := by
        rw [List.filter_eq_self]
        intro a ha
        rw [fst_of_mem_attributed ha]
        exact hp
      rw [hkept, if_pos hp, attributedInTurn_cons]
    · have hgone : (attributed rules severity source.path source.load).filter (fun a => p a.1)
          = [] := by
        rw [List.filter_eq_nil_iff]
        intro a ha
        rw [fst_of_mem_attributed ha]
        exact hp
      rw [hgone, if_neg hp, List.nil_append]

theorem map_snd_mergeSort (l : List (String × Finding)) :
    (l.mergeSort fun a b => Finding.le a.2 b.2).map Prod.snd
      = (l.map Prod.snd).mergeSort Finding.le := by
  rw [List.map_mergeSort]
  exact fun a _ b _ => rfl

theorem filter_mergeSort_attributed (l : List (String × Finding)) (p : String × Finding → Bool) :
    (l.mergeSort fun a b => Finding.le a.2 b.2).filter p
      = (l.filter p).mergeSort fun a b => Finding.le a.2 b.2 :=
  StableSort.filter_mergeSort (fun a b => Finding.le_iff a.2 b.2) l p

end Attribution

/-! ## Results without a fact file -/

/-- A result that lacks what one fact file contributed to another result, given the
findings of the other result with the paths of their fact files, and the facts that were
decoded at the path. -/
structure Result.IsWithout (result' result : Result) (findings : List (String × Finding))
    (rules : RuleSet) (severity : Severity) (path : String) (unit : FactFile) : Prop where
  /-- The findings of the other result, with their fact files. -/
  all : result.findings = findings.map Prod.snd
  /-- Those attributed to the path are the findings of the facts there. -/
  own : ((findings.filter fun a => a.1 = path).map Prod.snd).Perm
    (checkUnit rules severity unit).value
  /-- All others are left, in their order. -/
  others : result'.findings = (findings.filter fun a => a.1 ≠ path).map Prod.snd
  ruleCount : result'.stats.ruleCount = result.stats.ruleCount
  preferJson : result'.preferJson = result.preferJson
  analyzed : result.stats.filesAnalyzed = result'.stats.filesAnalyzed + 1
  skipped : result'.stats.filesSkipped = result.stats.filesSkipped + 1
  nodes : result.stats.nodesVisited = result'.stats.nodesVisited + unit.nodes.length

section Spoiled

variable {before after : List Source} {source spoiled : Source} {unit : FactFile} {error : Error}

theorem Source.units_append_cons_ok (h : source.load = .ok unit) :
    units (before ++ source :: after) = units before ++ unit :: units after := by
  simp [units, h, Except.toOption]

theorem Source.units_append_cons_error (h : spoiled.load = .error error) :
    units (before ++ spoiled :: after) = units before ++ units after := by
  simp [units, h, Except.toOption]

/-- Among files at different paths, a file is found by its path. -/
theorem Source.filter_path_eq (hbefore : ∀ s ∈ before, s.path ≠ source.path)
    (hafter : ∀ s ∈ after, s.path ≠ source.path) :
    (before ++ source :: after).filter (fun s => s.path = source.path) = [source] := by
  have hnone : ∀ files : List Source, (∀ s ∈ files, s.path ≠ source.path) →
      files.filter (fun s => s.path = source.path) = [] := by
    intro files h
    rw [List.filter_eq_nil_iff]
    intro s hs
    simpa using h s hs
  rw [List.filter_append, List.filter_cons_of_pos (by simp), hnone before hbefore,
    hnone after hafter, List.nil_append]

theorem Source.filter_path_ne (hbefore : ∀ s ∈ before, s.path ≠ source.path)
    (hafter : ∀ s ∈ after, s.path ≠ source.path) :
    (before ++ source :: after).filter (fun s => s.path ≠ source.path) = before ++ after := by
  have hall : ∀ files : List Source, (∀ s ∈ files, s.path ≠ source.path) →
      files.filter (fun s => s.path ≠ source.path) = files := by
    intro files h
    rw [List.filter_eq_self]
    intro s hs
    simpa using h s hs
  rw [List.filter_append, List.filter_cons_of_neg (by simp), hall before hbefore,
    hall after hafter]

/-- If the facts of one file can no longer be decoded, the result lacks what they
contributed. -/
theorem Settings.isWithout_resultOf (settings : Settings) (config : Option Config)
    (rules : RuleSet) (hunit : source.load = .ok unit) (hspoiled : spoiled.load = .error error)
    (hbefore : ∀ s ∈ before, s.path ≠ source.path)
    (hafter : ∀ s ∈ after, s.path ≠ source.path) :
    (settings.resultOf config rules (before ++ spoiled :: after)).IsWithout
      (settings.resultOf config rules (before ++ source :: after))
      ((Source.attributedInTurn rules settings.severityOrStandard
        (before ++ source :: after)).mergeSort fun a b => Finding.le a.2 b.2)
      rules settings.severityOrStandard source.path unit := by
  have hunits : Source.units (before ++ spoiled :: after) = Source.units (before ++ after) := by
    rw [Source.units_append_cons_error hspoiled, Source.units, Source.units, Source.units,
      List.filterMap_append]
  have hown := Source.filter_path_eq hbefore hafter
  have hothers := Source.filter_path_ne hbefore hafter
  refine ⟨?_, ?_, ?_, ?_, rfl, ?_, ?_, ?_⟩
  · rw [findings_resultOf, map_snd_mergeSort, Source.map_snd_attributedInTurn]
  · rw [filter_mergeSort_attributed, Source.filter_attributedInTurn (· = source.path), hown,
      map_snd_mergeSort, Source.map_snd_attributedInTurn]
    refine (List.mergeSort_perm _ _).trans ?_
    rw [Source.units, List.filterMap_cons, hunit]
    simp [checkUnit, Except.toOption]
  · rw [filter_mergeSort_attributed, Source.filter_attributedInTurn (· ≠ source.path), hothers,
      map_snd_mergeSort, Source.map_snd_attributedInTurn, findings_resultOf, hunits]
  · rw [stats_resultOf, stats_resultOf]
  · rw [stats_resultOf, stats_resultOf, Source.units_append_cons_ok hunit,
      Source.units_append_cons_error hspoiled]
    simp only [List.length_append, List.length_cons]
    omega
  · rw [stats_resultOf, stats_resultOf]
    simp only [List.countP_append, List.countP_cons, hunit, hspoiled, Except.isOk, Except.toBool]
    simp only [Bool.not_true, Bool.not_false, if_true, Bool.false_eq_true, if_false]
    omega
  · rw [stats_resultOf, stats_resultOf, Source.units_append_cons_ok hunit,
      Source.units_append_cons_error hspoiled]
    simp only [List.map_append, List.map_cons, List.sum_append, List.sum_cons]
    omega

end Spoiled

/-! ## One of the fact files that are found -/

/-- A change at the path of one fact file leaves those at other paths as they are. -/
theorem Source.map_change {before after : List Source} {source : Source}
    (hbefore : ∀ s ∈ before, s.path ≠ source.path) (hafter : ∀ s ∈ after, s.path ≠ source.path)
    (new : ByteArray) :
    ((before ++ source :: after).map fun s =>
        if s.path = source.path then (⟨s.path, new⟩ : Source) else s)
      = before ++ ⟨source.path, new⟩ :: after := by
  have hkept : ∀ files : List Source, (∀ s ∈ files, s.path ≠ source.path) →
      (files.map fun s => if s.path = source.path then (⟨s.path, new⟩ : Source) else s) = files :=
    fun files h => (List.map_congr_left fun s hs => if_neg (h s hs)).trans (List.map_id files)
  rw [List.map_append, List.map_cons, hkept before hbefore, hkept after hafter, if_pos rfl]

/-- A file that can be decoded is there. -/
theorem FactFile.find_of_load {ws : Workspace} {path : String} {unit : FactFile}
    (h : FactFile.load ws path = .ok unit) : ∃ content, ws.find path = .ok (.file content) := by
  rw [FactFile.load, Workspace.readText] at h
  rcases hfind : ws.find path with fault | content | entries
  · simp [hfind] at h
  · exact ⟨content, rfl⟩
  · simp [hfind] at h

namespace Discovery

variable {ws : Workspace} {root : String} {excludes : List String} {target : FileTree}

/-- A fact file that is found stands between fact files at other paths. -/
theorem exists_split_of_mem_sources (h : target.WellFormed) {source : Source}
    (hsource : source ∈ sources root excludes target) :
    ∃ before after, sources root excludes target = before ++ source :: after ∧
      (∀ s ∈ before, s.path ≠ source.path) ∧ ∀ s ∈ after, s.path ≠ source.path := by
  obtain ⟨before, after, hsplit⟩ := List.append_of_mem hsource
  have hsorted : (before ++ source :: after).Pairwise fun a b =>
      Path.components a.path < Path.components b.path := hsplit ▸ pairwise_sources h
  rw [List.pairwise_append, List.pairwise_cons] at hsorted
  refine ⟨before, after, hsplit, ?_, ?_⟩
  · intro s hs heq
    have hlt := hsorted.2.2 s hs source List.mem_cons_self
    rw [heq] at hlt
    exact lt_irrefl _ hlt
  · intro s hs heq
    have hlt := hsorted.2.1.1 s hs
    rw [heq] at hlt
    exact lt_irrefl _ hlt

/-- The configuration file is no fact file. -/
theorem locate_config_ne {names : List String} {content : ByteArray}
    (hplace : Locates target names content) (hroot : root ≠ "") :
    ws.locate (Config.path root) ≠ ws.locate root ++ names := by
  have hconfig : ws.locate (Config.path root) = ws.locate root ++ [configFile] :=
    Workspace.locate_join hroot (by decide)
  rw [hconfig]
  intro heq
  have hlast : names.getLast? = some configFile := by
    rw [← List.append_cancel_left heq]
    rfl
  -- its name does not end like that of a fact file
  exact absurd (hplace.isFact configFile hlast) (by decide)

end Discovery

/-- What an analysis gives after other content was written to one of its fact files: the
configuration and the rules are the same, and so are the fact files but for this one. -/
theorem Settings.analyze_after_change (settings : Settings) {ws : Workspace} {root : String}
    {target : FileTree} (hwf : target.WellFormed) (hroot : ws.find root = .ok target)
    (hread : Discovery.AllReadable root target) {source : Source}
    (hsource : source ∈ Discovery.sources root
      (settings.excludesUnder (settings.config ws root).value) target)
    (hpath : ReadFault.ofPath? source.path = none)
    (hrules : ∀ path, settings.rulesPath? (settings.config ws root).value root = some path →
      ¬ ws.SamePlace path source.path) (new : ByteArray) :
    ∃ before after, Discovery.sources root
        (settings.excludesUnder (settings.config ws root).value) target
        = before ++ source :: after ∧
      (∀ s ∈ before, s.path ≠ source.path) ∧ (∀ s ∈ after, s.path ≠ source.path) ∧
      (settings.analyze (ws.put source.path (.file new)) root).value
        = .ok (settings.resultOf (settings.config ws root).value
          (settings.loadRules ws root).value (before ++ ⟨source.path, new⟩ :: after)) ∧
      FactFile.load (ws.put source.path (.file new)) source.path
        = (⟨source.path, new⟩ : Source).load := by
  obtain ⟨names, hnames, hplace⟩ := Discovery.exists_locates hwf hsource
  have hfind := Discovery.find_of_mem_sources hwf hroot hsource hpath
  have hne : root ≠ "" :=
    (ReadFault.ofPath?_eq_none_iff.mp (Workspace.find_eq_ok_iff.mp hroot).1).2.1
  have hlocate : ws.locate source.path = ws.locate root ++ names := by
    rw [hnames]
    exact Workspace.locate_below hplace.named hne
  have hget : ws.root.get? (ws.locate root ++ names) = some (.file source.content) := by
    rw [← hlocate]
    exact Workspace.get?_of_find hfind
  rw [Workspace.put_of_find hfind, hlocate]
  -- the change is neither in the configuration file nor in the rule file
  have hconfigNe : ws.isDir root → ws.locate (Config.path root) ≠ ws.locate root ++ names :=
    fun _ => Discovery.locate_config_ne hplace hne
  have hconfig := settings.config_withContent hget new hconfigNe
  have hpresent : ws.isPresent source.path := by simp [Workspace.isPresent, hfind]
  have hloadRules := settings.loadRules_withContent hget new hconfigNe
    fun path hrulesPath hthere hsame =>
      hrules path hrulesPath ⟨hthere, hpresent, hsame.trans hlocate.symm⟩
  -- discovery finds the same fact files, with new content at the place
  have hroot' := Workspace.find_withContent hroot hplace.stands new
  have hwf' : (target.insert names (.file new)).WellFormed := hwf.insert (.file new) hplace.stands
  have hdiscover := Discovery.discover_of_allReadable hwf'
    (Discovery.allReadable_insert hread hplace.stands new)
    (settings.excludesUnder (settings.config ws root).value)
  obtain ⟨before, after, hsplit, hbefore, hafter⟩ :=
    Discovery.exists_split_of_mem_sources hwf hsource
  have hfiles : Discovery.sources root (settings.excludesUnder (settings.config ws root).value)
      (target.insert names (.file new)) = before ++ ⟨source.path, new⟩ :: after := by
    rw [Discovery.sources_insert root _ hwf hplace.stands hplace.named, hsplit, ← hnames,
      Source.map_change hbefore hafter]
  refine ⟨before, after, hsplit, hbefore, hafter, ?_, ?_⟩
  · rw [← hfiles, ← hconfig, ← hloadRules]
    refine value_analyze hroot' ?_
    rw [hconfig]
    exact hdiscover
  · have hmem : (⟨source.path, new⟩ : Source) ∈ Discovery.sources root
        (settings.excludesUnder (settings.config ws root).value)
        (target.insert names (.file new)) := by
      rw [hfiles]
      simp
    exact Discovery.load_of_mem_sources hwf' hroot' hmem

/-- What is attributed to the fact files is what reading their paths gives. -/
theorem attributedFindings_sources {ws : Workspace} {root : String} {target : FileTree}
    (hwf : target.WellFormed) (hroot : ws.find root = .ok target) (rules : RuleSet)
    (severity : Severity) (excludes : List String) :
    attributedFindings ws rules severity (Discovery.sources root excludes target)
      = (Source.attributedInTurn rules severity (Discovery.sources root excludes target)).mergeSort
        fun a b => Finding.le a.2 b.2 := by
  have hturn : ((Discovery.sources root excludes target).flatMap fun source =>
      attributed rules severity source.path (FactFile.load ws source.path))
      = Source.attributedInTurn rules severity (Discovery.sources root excludes target) := by
    refine List.flatMap_congr ?_
    intro source hsource
    rw [Discovery.load_of_mem_sources hwf hroot hsource]
  rw [attributedFindings, hturn]

/-- **Containment**: the analysis of an existing root does not fail. And when a fact file
that was decoded gets content that cannot be decoded, the findings lose those of this file
and keep all others in their order, and the counts change by this file alone. -/
theorem bad_input_is_contained (settings : Settings) {ws : Workspace} {root : String}
    {target : FileTree} (hwf : ws.root.WellFormed) (hroot : ws.find root = .ok target)
    (hread : Discovery.AllReadable root target) :
    ∃ files result,
      Discovery.gather ws root (settings.excludesUnder (settings.config ws root).value)
        = .ok files ∧
      (settings.analyze ws root).value = .ok result ∧
      ∀ source ∈ files, ∀ (unit : FactFile) (new : ByteArray) (error : Error),
        FactFile.load ws source.path = .ok unit →
        FactFile.load (ws.put source.path (.file new)) source.path = .error error →
        (∀ path, settings.rulesPath? (settings.config ws root).value root = some path →
          ¬ ws.SamePlace path source.path) →
        ∃ result', (settings.analyze (ws.put source.path (.file new)) root).value = .ok result' ∧
          result'.IsWithout result
            (attributedFindings ws (settings.loadRules ws root).value settings.severityOrStandard
              files)
            (settings.loadRules ws root).value settings.severityOrStandard source.path unit := by
  have htarget : target.WellFormed := hwf.get? (Workspace.get?_of_find hroot)
  have hfiles := Discovery.discover_of_allReadable htarget hread
    (settings.excludesUnder (settings.config ws root).value)
  refine ⟨_, _, Discovery.gather_of_allReadable htarget hroot hread _,
    Settings.value_analyze hroot hfiles, ?_⟩
  intro source hsource unit new error hunit hspoiled hrules
  obtain ⟨content, hfind⟩ := FactFile.find_of_load hunit
  obtain ⟨before, after, hsplit, hbefore, hafter, hanalyze, hload⟩ :=
    settings.analyze_after_change htarget hroot hread hsource
      (Workspace.find_eq_ok_iff.mp hfind).1 hrules new
  rw [Discovery.load_of_mem_sources htarget hroot hsource] at hunit
  rw [hload] at hspoiled
  refine ⟨_, hanalyze, ?_⟩
  rw [attributedFindings_sources htarget hroot, hsplit]
  exact settings.isWithout_resultOf _ _ hunit hspoiled hbefore hafter

/-- What `tieFacts` says. -/
def tieUnit : FactFile :=
  ⟨"A.java",
    [⟨1, 0, .construction (some ⟨"B", .method, some ⟨some "a.B", true⟩, false, [], .void⟩)⟩]⟩

/-- One of two fact files about the same position is cut off, while the rules are read
from a file beside them. -/
theorem bad_input_is_contained_of_tie :
    ∃ files result result',
      Discovery.gather tieWorkspace "w"
        (tieSettings.excludesUnder (tieSettings.config tieWorkspace "w").value) = .ok files ∧
      (tieSettings.analyze tieWorkspace "w").value = .ok result ∧
      (tieSettings.analyze (tieWorkspace.put "w/a.facts.json" (.file "\x7b".toUTF8)) "w").value
        = .ok result' ∧
      result'.IsWithout result
        (attributedFindings tieWorkspace (tieSettings.loadRules tieWorkspace "w").value
          tieSettings.severityOrStandard files)
        (tieSettings.loadRules tieWorkspace "w").value tieSettings.severityOrStandard
        "w/a.facts.json" tieUnit := by
  obtain ⟨files, result, hfiles, hresult, hspoiled⟩ :=
    bad_input_is_contained tieSettings tieWorkspace_wellFormed rfl tieTarget_allReadable
  have hsources : files = Discovery.sources "w"
      (tieSettings.excludesUnder (tieSettings.config tieWorkspace "w").value) tieTarget := by
    have hgather := Discovery.gather_of_allReadable
      (tieWorkspace_wellFormed.get? (rfl : tieWorkspace.root.get? ["w"] = some tieTarget))
      (rfl : tieWorkspace.find "w" = .ok tieTarget) tieTarget_allReadable
      (tieSettings.excludesUnder (tieSettings.config tieWorkspace "w").value)
    rw [hgather] at hfiles
    exact (Except.ok.inj hfiles).symm
  have hmem : (⟨"w/a.facts.json", tieFacts.toUTF8⟩ : Source) ∈ files := by
    rw [hsources]
    refine List.mem_map.mpr ⟨(["a.facts.json"], tieFacts.toUTF8), ?_, rfl⟩
    have hfact : isFactName "a.facts.json" := by decide
    exact List.mem_mergeSort.mpr
      (by simp [Discovery.walk, Discovery.reached, Discovery.isFollowed, hfact])
  obtain ⟨result', hresult', hwithout⟩ := hspoiled _ hmem tieUnit "\x7b".toUTF8
    (.facts "w/a.facts.json" Json.verdict) (by decide +kernel) (by decide +kernel) (by
      intro path hpath hsame
      have hrules : path = "rules.json" := (Option.some.inj hpath).symm
      subst hrules
      exact absurd hsame.2.2 (by decide))
  exact ⟨files, result, result', hfiles, hresult, hresult', hwithout⟩

end DeprecatedApi
