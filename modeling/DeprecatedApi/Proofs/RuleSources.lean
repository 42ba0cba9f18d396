import DeprecatedApi.Proofs.AnalysisUnion
import DeprecatedApi.Proofs.FileChanges

/-!
# Sources of rules

There are four sources of rules: a text in the settings, a file that the settings name, a text in
the configuration, and a file that the configuration names. The first one that is set counts, and
then the others do not matter at all, whether they are there or not, and also where the one that
counts gives no rules. The configuration still says which directories to pass over and which form
the report has.

* `Config.withoutRules`, `Config.withoutRulesFile`: what stays of a configuration.
* `Config.Keeps`: a change to the configuration that leaves some of it as it is.
* `Settings.SameRun`: two runs with the same rules and the same result.
* `Workspace.FilesChange.sameRun`: runs on the same rule text are such.
* `lower_sources_never_leak`: rules do not depend on sources that do not count.
-/

namespace DeprecatedApi

/-! ## Configurations -/

namespace Config

/-- What a configuration says beside the rules. -/
def withoutRules (config : Config) : Config :=
  { config with deprecatedApis := none, deprecatedApisFile := none }

/-- What a configuration says beside the file with the rules. -/
def withoutRulesFile (config : Config) : Config :=
  { config with deprecatedApisFile := none }

/-- Configurations that say the same beside the file with the rules say the same beside the
rules. -/
theorem map_withoutRules_congr {config config' : Option Config}
    (h : config'.map withoutRulesFile = config.map withoutRulesFile) :
    config'.map withoutRules = config.map withoutRules := by
  have hcongr := congrArg (Option.map withoutRules) h
  rw [Option.map_map, Option.map_map] at hcongr
  exact hcongr

/-- A configuration file that changes is valid before and after, and says the same in part. -/
def Keeps (part : Config → Config) (changed : List String → Prop) (root : String)
    (ws ws' : Workspace) : Prop :=
  changed (ws.locate (path root)) → ∃ config config', load ws root = .ok (some config) ∧
    load ws' root = .ok (some config') ∧ part config' = part config

theorem toOption_load (ws : Workspace) (root : String) :
    (load ws root).toOption
      = if ws.isPresent (path root) then
          ((ws.readText (path root)).toOption.bind parse?).map some
        else some none := by
  unfold load
  by_cases hpresent : ws.isPresent (path root)
  · rw [if_pos hpresent, if_pos hpresent]
    cases ws.readText (path root) with
    | error fault => rfl
    | ok text =>
      cases hparse : parse? text with
      | none => simp [Except.toOption, hparse]
      | some config => simp [Except.toOption, hparse]
  · rw [if_neg hpresent, if_neg hpresent]
    rfl

/-- Rules in the configuration go before the file that it names. -/
theorem value_rulesText_of_deprecatedApis {config : Config} {text : String}
    (h : config.deprecatedApis = some text) (ws : Workspace) (root : String) :
    (config.rulesText ws root).value = some text := by
  unfold rulesText
  rw [h]
  rfl

end Config

namespace Settings

theorem value_config (settings : Settings) (ws : Workspace) (root : String) :
    (settings.config ws root).value
      = if settings.useConfig && ws.isDir root then (Config.load ws root).toOption.join
        else none := by
  unfold config
  split
  · cases Config.load ws root with
    | error error => rfl
    | ok config => rfl
  · rfl

/-- A configuration is not asked for. -/
theorem value_config_eq_none {settings : Settings} {ws : Workspace} {root : String}
    (h : settings.useConfig = false ∨ ws.isDir root = false) :
    (settings.config ws root).value = none := by
  rw [value_config]
  rcases h with huse | hdir
  · simp [huse]
  · simp [hdir]

/-- The configuration that is used is the one that is loaded. -/
theorem load_of_value_config {settings : Settings} {ws : Workspace} {root : String}
    {config : Config} (h : (settings.config ws root).value = some config) :
    (Config.load ws root).toOption = some (some config) := by
  rw [value_config] at h
  split at h
  · exact Option.join_eq_some_iff.mp h
  · cases h

/-- The directories to pass over do not depend on the configured rules. -/
theorem excludesUnder_map_withoutRules (settings : Settings) (config : Option Config) :
    settings.excludesUnder (config.map Config.withoutRules) = settings.excludesUnder config := by
  cases config with
  | none => rfl
  | some config => rfl

/-- Apart from the rules themselves, the result does not depend on the configured rules. -/
theorem resultOf_map_withoutRules (settings : Settings) (config : Option Config)
    (rules : RuleSet) (files : List Source) :
    settings.resultOf (config.map Config.withoutRules) rules files
      = settings.resultOf config rules files := by
  cases config with
  | none => rfl
  | some config => rfl

/-! ## The source that counts -/

section Sources

variable {settings : Settings} {text file : String}

theorem value_rulesSource_of_text (htext : settings.rulesText = some text)
    (config : Option Config) (ws : Workspace) (root : String) :
    (settings.rulesSource config ws root).value = some text := by
  unfold rulesSource
  rw [htext]
  rfl

theorem value_rulesSource_of_file (htext : settings.rulesText = none)
    (hfile : settings.rulesFile = some file) (config : Option Config) (ws : Workspace)
    (root : String) :
    (settings.rulesSource config ws root).value = (ws.readText file).toOption := by
  simp only [rulesSource, htext, hfile]
  cases ws.readText file with
  | error fault => rfl
  | ok text => rfl

theorem value_rulesSource_of_config (htext : settings.rulesText = none)
    (hfile : settings.rulesFile = none) (config : Option Config) (ws : Workspace)
    (root : String) :
    (settings.rulesSource config ws root).value
      = config.bind fun config => (config.rulesText ws root).value := by
  unfold rulesSource
  rw [htext, hfile]
  cases config with
  | none => rfl
  | some config => rfl

end Sources

end Settings

/-- A text that is refused gives no rules. -/
theorem RuleSet.value_parseOrEmpty_eq_nil {text : String}
    (h : ∀ rules, (parse text).value ≠ .ok rules) : (parseOrEmpty (some text)).value = [] := by
  unfold parseOrEmpty
  rw [Logged.value_bind]
  cases hparse : (parse text).value with
  | error fault => rfl
  | ok rules => exact absurd hparse (h rules)

/-! ## Runs -/

namespace Settings

theorem value_loadRules (settings : Settings) (ws : Workspace) (root : String) :
    (settings.loadRules ws root).value
      = (RuleSet.parseOrEmpty
          (settings.rulesSource (settings.config ws root).value ws root).value).value :=
  rfl

/-- An analysis has a result exactly if discovery has one. -/
theorem toOption_value_analyze (settings : Settings) {ws : Workspace} {root : String}
    {target : FileTree} (hroot : ws.find root = .ok target) :
    (settings.analyze ws root).value.toOption
      = (Discovery.discover root (settings.excludesUnder (settings.config ws root).value)
          target).toOption.map
        (settings.resultOf (settings.config ws root).value (settings.loadRules ws root).value) := by
  cases hfiles : Discovery.discover root
      (settings.excludesUnder (settings.config ws root).value) target with
  | error fault =>
    simp only [analyze, hroot, analyzeAt, Logged.value_bind, hfiles]
    rfl
  | ok files =>
    rw [value_analyze hroot hfiles]
    rfl

/-- There is no result without a root. -/
theorem toOption_value_analyze_of_missing (settings : Settings) {ws : Workspace} {root : String}
    {fault : ReadFault} (hroot : ws.find root = .error fault) :
    (settings.analyze ws root).value.toOption = none := by
  unfold analyze
  rw [hroot]
  rfl

/-- An analysis has a result exactly if the fact files are found, and then the result is their
union under the rules that are loaded. -/
theorem isUnion_analyze (settings : Settings) {ws : Workspace} (hwf : ws.root.WellFormed)
    (root : String) :
    Option.Rel
      (Result.IsUnion ws (settings.loadRules ws root).value settings.severityOrStandard)
      (Discovery.gather ws root
        (settings.excludesUnder (settings.config ws root).value)).toOption
      (settings.analyze ws root).value.toOption := by
  unfold Discovery.gather
  cases hroot : ws.find root with
  | error fault =>
    rw [settings.toOption_value_analyze_of_missing hroot]
    exact .none
  | ok target =>
    have htarget : target.WellFormed := hwf.get? (Workspace.get?_of_find hroot)
    rw [settings.toOption_value_analyze hroot]
    show Option.Rel _ (Discovery.discover root _ target).toOption _
    unfold Discovery.discover
    cases Discovery.unreadable? root _ target with
    | some fault => exact .none
    | none => exact .some (settings.isUnion_resultOf _ _ htarget hroot)

/-- Two runs have the same rules and the same result, if any. -/
structure SameRun (settings settings' : Settings) (root : String) (ws ws' : Workspace) :
    Prop where
  rules : (settings'.loadRules ws' root).value = (settings.loadRules ws root).value
  result : (settings'.analyze ws' root).value.toOption
    = (settings.analyze ws root).value.toOption

end Settings

namespace Workspace.FilesChange

variable {changed : List String → Prop} {root : String} {ws ws' : Workspace}
  {settings settings' : Settings}

/-- A configuration file that does not change is loaded as before. -/
theorem toOption_load (h : FilesChange changed root ws ws')
    (hplace : ¬ changed (ws.locate (Config.path root))) :
    (Config.load ws' root).toOption = (Config.load ws root).toOption := by
  rw [Config.toOption_load, Config.toOption_load, h.isPresent_eq hplace,
    h.toOption_readText hplace]

/-- What a configuration keeps when its file changes. -/
theorem map_value_config (h : FilesChange changed root ws ws') {part : Config → Config}
    (hkeeps : Config.Keeps part changed root ws ws')
    (huse : settings'.useConfig = settings.useConfig) :
    (settings'.config ws' root).value.map part = (settings.config ws root).value.map part := by
  rw [Settings.value_config, Settings.value_config, huse, h.isDir_eq]
  by_cases hplace : changed (ws.locate (Config.path root))
  · obtain ⟨config, config', hload, hload', hpart⟩ := hkeeps hplace
    rw [hload, hload']
    cases settings.useConfig && ws.isDir root with
    | false => rfl
    | true => exact congrArg some hpart
  · rw [h.toOption_load hplace]

/-- **Runs on the same rule text are the same**, as long as the configuration says the same beside
the rules. -/
theorem sameRun (h : FilesChange changed root ws ws')
    (hexcludes : settings'.excludes = settings.excludes)
    (hseverity : settings'.severity = settings.severity)
    (hconfig : (settings'.config ws' root).value.map Config.withoutRules
      = (settings.config ws root).value.map Config.withoutRules)
    (hsource : (settings'.rulesSource (settings'.config ws' root).value ws' root).value
      = (settings.rulesSource (settings.config ws root).value ws root).value) :
    settings.SameRun settings' root ws ws' := by
  have hrules : (settings'.loadRules ws' root).value = (settings.loadRules ws root).value := by
    rw [Settings.value_loadRules, Settings.value_loadRules, hsource]
  have hpassed : settings'.excludesUnder (settings'.config ws' root).value
      = settings.excludesUnder (settings.config ws root).value := by
    rw [← settings'.excludesUnder_map_withoutRules, hconfig,
      ← settings.excludesUnder_map_withoutRules]
    unfold Settings.excludesUnder
    rw [hexcludes]
  have hresult : settings'.resultOf (settings'.config ws' root).value
      = settings.resultOf (settings.config ws root).value := by
    funext rules files
    rw [← settings'.resultOf_map_withoutRules, hconfig, ← settings.resultOf_map_withoutRules]
    unfold Settings.resultOf Settings.severityOrStandard
    rw [hseverity]
  refine ⟨hrules, ?_⟩
  -- the root is there in both runs or in none
  have hpresent := h.isPresent_root
  unfold isPresent at hpresent
  cases hroot : ws.find root with
  | error fault =>
    cases hroot' : ws'.find root with
    | error fault' =>
      rw [settings.toOption_value_analyze_of_missing hroot,
        settings'.toOption_value_analyze_of_missing hroot']
    | ok target' =>
      rw [hroot, hroot'] at hpresent
      cases hpresent
  | ok target =>
    cases hroot' : ws'.find root with
    | error fault' =>
      rw [hroot, hroot'] at hpresent
      cases hpresent
    | ok target' =>
      rw [settings.toOption_value_analyze hroot, settings'.toOption_value_analyze hroot', hpassed,
        h.toOption_discover hroot hroot', hresult, hrules]

/-! ## Sources that do not count -/

/-- A text in the settings goes before everything else. -/
theorem sameRun_of_text (h : FilesChange changed root ws ws') {text : String}
    (htext : settings.rulesText = some text)
    (hkeeps : Config.Keeps Config.withoutRules changed root ws ws') (file : Option String) :
    settings.SameRun { settings with rulesFile := file } root ws ws' := by
  have htext' : ({ settings with rulesFile := file } : Settings).rulesText = some text := htext
  refine h.sameRun rfl rfl (h.map_value_config hkeeps rfl) ?_
  rw [Settings.value_rulesSource_of_text htext, Settings.value_rulesSource_of_text htext']

/-- A file that the settings name goes before the configuration. -/
theorem sameRun_of_file (h : FilesChange changed root ws ws') {file : String}
    (htext : settings.rulesText = none) (hfile : settings.rulesFile = some file)
    (hplace : ¬ changed (ws.locate file))
    (hkeeps : Config.Keeps Config.withoutRules changed root ws ws') :
    settings.SameRun settings root ws ws' := by
  refine h.sameRun rfl rfl (h.map_value_config hkeeps rfl) ?_
  rw [Settings.value_rulesSource_of_file htext hfile,
    Settings.value_rulesSource_of_file htext hfile, h.toOption_readText hplace]

/-- A text in the configuration goes before the file that the configuration names. -/
theorem sameRun_of_configured (h : FilesChange changed root ws ws') {config : Config}
    {text : String} (htext : settings.rulesText = none) (hfile : settings.rulesFile = none)
    (hload : Config.load ws root = .ok (some config))
    (hconfigured : config.deprecatedApis = some text)
    (hkeeps : Config.Keeps Config.withoutRulesFile changed root ws ws') :
    settings.SameRun settings root ws ws' := by
  have hkept : (settings.config ws' root).value.map Config.withoutRulesFile
      = (settings.config ws root).value.map Config.withoutRulesFile :=
    h.map_value_config hkeeps rfl
  refine h.sameRun rfl rfl (Config.map_withoutRules_congr hkept) ?_
  rw [Settings.value_rulesSource_of_config htext hfile,
    Settings.value_rulesSource_of_config htext hfile]
  cases hfound : (settings.config ws root).value with
  | none =>
    rw [hfound, Option.map_none, Option.map_eq_none_iff] at hkept
    rw [hkept, Option.bind_none, Option.bind_none]
  | some found =>
    rw [hfound, Option.map_some] at hkept
    obtain ⟨found', hfound', hpart⟩ := Option.map_eq_some_iff.mp hkept
    have hrules : found.deprecatedApis = some text := by
      have hloaded := Settings.load_of_value_config hfound
      rw [hload] at hloaded
      cases hloaded
      exact hconfigured
    have hrules' : found'.deprecatedApis = some text :=
      (congrArg Config.deprecatedApis hpart).trans hrules
    rw [hfound', Option.bind_some, Option.bind_some,
      Config.value_rulesText_of_deprecatedApis hrules,
      Config.value_rulesText_of_deprecatedApis hrules']

/-- A configuration that is not asked for does not matter at all. -/
theorem sameRun_of_unused (h : FilesChange changed root ws ws')
    (hunused : settings.useConfig = false ∨ ws.isDir root = false)
    (hplace : ∀ file, settings.rulesText = none → settings.rulesFile = some file →
      ¬ changed (ws.locate file)) :
    settings.SameRun settings root ws ws' := by
  have hnone : (settings.config ws root).value = none := Settings.value_config_eq_none hunused
  have hnone' : (settings.config ws' root).value = none := by
    rw [← h.isDir_eq] at hunused
    exact Settings.value_config_eq_none hunused
  refine h.sameRun rfl rfl (by rw [hnone, hnone']) ?_
  rw [hnone, hnone']
  cases htext : settings.rulesText with
  | some text =>
    rw [Settings.value_rulesSource_of_text htext, Settings.value_rulesSource_of_text htext]
  | none =>
    cases hfile : settings.rulesFile with
    | some file =>
      rw [Settings.value_rulesSource_of_file htext hfile,
        Settings.value_rulesSource_of_file htext hfile,
        h.toOption_readText (hplace file htext hfile)]
    | none =>
      rw [Settings.value_rulesSource_of_config htext hfile,
        Settings.value_rulesSource_of_config htext hfile, Option.bind_none, Option.bind_none]

end Workspace.FilesChange

/-- A file that the settings name gives no rules if it cannot be read or is refused. -/
theorem Settings.value_loadRules_eq_nil {settings : Settings} {ws : Workspace} {file : String}
    (htext : settings.rulesText = none) (hfile : settings.rulesFile = some file)
    (hrefused : ∀ text rules, ws.readText file = .ok text →
      (RuleSet.parse text).value ≠ .ok rules) (root : String) :
    (settings.loadRules ws root).value = [] := by
  rw [value_loadRules, value_rulesSource_of_file htext hfile]
  cases hread : ws.readText file with
  | error fault => rfl
  | ok text => exact RuleSet.value_parseOrEmpty_eq_nil fun rules => hrefused text rules hread

/-- **Sources that do not count do not matter.** Let files change that are no fact files, and if
the configuration is one of them, let it stay valid and keep all that it says beside the rules in
question. Then the rules and the result are those of before: what stands behind the first source
that is set is of no consequence. A configuration that is not asked for may change in any way. -/
theorem lower_sources_never_leak (settings : Settings) {changed : List String → Prop}
    {root : String} {ws ws' : Workspace} (h : Workspace.FilesChange changed root ws ws') :
    -- a text in the settings goes before everything else
    (∀ text, settings.rulesText = some text →
      Config.Keeps Config.withoutRules changed root ws ws' →
      ∀ file, settings.SameRun { settings with rulesFile := file } root ws ws') ∧
    -- a file that the settings name goes before the configuration, even if it gives no rules
    (∀ file, settings.rulesText = none → settings.rulesFile = some file →
      (¬ changed (ws.locate file) → Config.Keeps Config.withoutRules changed root ws ws' →
        settings.SameRun settings root ws ws') ∧
      ((∀ text rules, ws.readText file = .ok text → (RuleSet.parse text).value ≠ .ok rules) →
        (settings.loadRules ws root).value = [])) ∧
    -- a text in the configuration goes before the file that the configuration names
    (∀ config text, settings.rulesText = none → settings.rulesFile = none →
      Config.load ws root = .ok (some config) → config.deprecatedApis = some text →
      Config.Keeps Config.withoutRulesFile changed root ws ws' →
      settings.SameRun settings root ws ws') ∧
    -- a configuration that is not asked for does not matter at all
    (settings.useConfig = false ∨ ws.isDir root = false →
      (∀ file, settings.rulesText = none → settings.rulesFile = some file →
        ¬ changed (ws.locate file)) →
      settings.SameRun settings root ws ws') ∧
    -- and the rules that are loaded are those that fact files are checked against
    Option.Rel
      (Result.IsUnion ws (settings.loadRules ws root).value settings.severityOrStandard)
      (Discovery.gather ws root
        (settings.excludesUnder (settings.config ws root).value)).toOption
      (settings.analyze ws root).value.toOption := by
  refine ⟨?_, ?_, ?_, ?_, settings.isUnion_analyze h.wellFormed root⟩
  · intro text htext hkeeps file
    exact h.sameRun_of_text htext hkeeps file
  · intro file htext hfile
    exact ⟨h.sameRun_of_file htext hfile,
      fun hrefused => Settings.value_loadRules_eq_nil htext hfile hrefused root⟩
  · intro config text htext hfile hload hconfigured hkeeps
    exact h.sameRun_of_configured htext hfile hload hconfigured hkeeps
  · intro hunused hplace
    exact h.sameRun_of_unused hunused hplace

/-- A rule for the construction in `tieFacts`. -/
def constructionRule : String :=
  "[\x7b\"fqcn\":\"a.B\",\"member\":\"<init>\"\x7d]"

/-- A root with a fact file and a configuration, beside a file with a rule. -/
def configuredWorkspace (config : String) (more : List (String × FileTree)) : Workspace :=
  ⟨.dir [("rules.json", .file constructionRule.toUTF8),
    ("w", .dir (("a.facts.json", .file tieFacts.toUTF8)
      :: ("customdep.toml", .file config.toUTF8) :: more))], []⟩

theorem configuredWorkspace_wellFormed (config : String) {more : List (String × FileTree)}
    (hdistinct : ("a.facts.json" :: "customdep.toml" :: more.map Prod.fst).Nodup)
    (hnamed : ∀ entry ∈ more, IsName entry.1) (hmore : ∀ entry ∈ more, entry.2.WellFormed) :
    (configuredWorkspace config more).root.WellFormed := by
  have hnames : ∀ name ∈ ["rules.json", "w", "a.facts.json", "customdep.toml"], IsName name := by
    decide
  simp only [List.forall_mem_cons, List.not_mem_nil, IsEmpty.forall_iff, implies_true,
    and_true] at hnames
  obtain ⟨hrules, hroot, hfacts, hconfig⟩ := hnames
  refine .dir (show ["rules.json", "w"].Nodup by decide) ?_ ?_
  · simpa using ⟨hrules, hroot⟩
  · simp only [List.forall_mem_cons, List.not_mem_nil, IsEmpty.forall_iff, implies_true, and_true]
    refine ⟨.file _, .dir hdistinct ?_ ?_⟩
    · exact List.forall_mem_cons.mpr ⟨hfacts, List.forall_mem_cons.mpr ⟨hconfig, hnamed⟩⟩
    · exact List.forall_mem_cons.mpr ⟨.file _, List.forall_mem_cons.mpr ⟨.file _, hmore⟩⟩

/-- The configuration holds a blank text and names a file. -/
def twoSourcesWorkspace : Workspace :=
  configuredWorkspace "deprecated_apis = ''\ndeprecated_apis_file = 'm'\n" [("m", .file "[]".toUTF8)]

/-- The configuration no longer names the file, which is gone. -/
def oneSourceWorkspace : Workspace :=
  configuredWorkspace "deprecated_apis = ''\n" []

theorem load_twoSourcesWorkspace :
    Config.load twoSourcesWorkspace "w" = .ok (some ⟨some "", some "m", none, none⟩) := by
  decide +kernel

theorem load_oneSourceWorkspace :
    Config.load oneSourceWorkspace "w" = .ok (some ⟨some "", none, none, none⟩) := by
  decide +kernel

/-- The places of the configuration and of the file that it names. -/
def IsConfiguredPlace (way : List String) : Prop :=
  way = ["w", "customdep.toml"] ∨ way = ["w", "m"]

theorem filesChange_oneSourceWorkspace :
    Workspace.FilesChange IsConfiguredPlace "w" twoSourcesWorkspace oneSourceWorkspace where
  wellFormed := configuredWorkspace_wellFormed _ (by decide) (by decide)
    (by simpa using FileTree.WellFormed.file _)
  wellFormed' := configuredWorkspace_wellFormed _ (by decide) (by decide) (by simp)
  cwd := rfl
  others := by
    intro way hway
    rcases way with _ | ⟨first, way⟩
    · rfl
    by_cases hroot : first = "w"
    · subst hroot
      rcases way with _ | ⟨second, way⟩
      · rfl
      by_cases hconfig : second = "customdep.toml"
      · subst hconfig
        cases way with
        | nil => exact absurd (.inl rfl) hway
        | cons third way => rfl
      by_cases hnamed : second = "m"
      · subst hnamed
        cases way with
        | nil => exact absurd (.inr rfl) hway
        | cons third way => rfl
      · have hconfig' : (second == "customdep.toml") = false := by simpa using hconfig
        have hnamed' : (second == "m") = false := by simpa using hnamed
        show (FileTree.get? (second :: way) (.dir [_, _])).map _
          = (FileTree.get? (second :: way) (.dir [_, _, _])).map _
        simp only [FileTree.get?, List.lookup_cons, List.lookup_nil, hconfig', hnamed']
    · have hroot' : (first == "w") = false := by simpa using hroot
      simp only [twoSourcesWorkspace, oneSourceWorkspace, configuredWorkspace, FileTree.get?,
        List.lookup_cons, hroot']
  files := by
    rintro way (rfl | rfl)
    · constructor
      · intro h
        cases h
      · intro h
        cases h
    · constructor
      · intro h
        cases h
      · intro h
        cases h
  noFacts := by
    rintro way name (rfl | rfl) hlast
    · cases hlast
      decide
    · cases hlast
      decide
  root := by
    rintro (h | h)
    · cases h
    · cases h

/-- The file that the configuration names makes no difference, neither to other rules nor to the
blank text beside it; and a missing file in the settings is not replaced by the configuration. -/
theorem lower_sources_of_twoSourcesWorkspace :
    (∀ file, (Settings.ofSteps [.rulesText constructionRule]).SameRun
      { Settings.ofSteps [.rulesText constructionRule] with rulesFile := file } "w"
      twoSourcesWorkspace oneSourceWorkspace) ∧
    tieSettings.SameRun tieSettings "w" twoSourcesWorkspace oneSourceWorkspace ∧
    Settings.standard.SameRun .standard "w" twoSourcesWorkspace oneSourceWorkspace ∧
    (Settings.ofSteps [.useConfig false]).SameRun (.ofSteps [.useConfig false]) "w"
      twoSourcesWorkspace oneSourceWorkspace ∧
    ((Settings.ofSteps [.rulesFile "none"]).loadRules twoSourcesWorkspace "w").value = [] := by
  have hkeeps : ∀ part : Config → Config, part ⟨some "", none, none, none⟩
      = part ⟨some "", some "m", none, none⟩ →
      Config.Keeps part IsConfiguredPlace "w" twoSourcesWorkspace oneSourceWorkspace :=
    fun _ hpart _ => ⟨_, _, load_twoSourcesWorkspace, load_oneSourceWorkspace, hpart⟩
  refine ⟨?_, ?_, ?_, ?_, ?_⟩
  · exact (lower_sources_never_leak _ filesChange_oneSourceWorkspace).1 _ rfl (hkeeps _ rfl)
  · refine ((lower_sources_never_leak _ filesChange_oneSourceWorkspace).2.1 "rules.json" rfl
      rfl).1 ?_ (hkeeps _ rfl)
    show ¬ IsConfiguredPlace ["rules.json"]
    unfold IsConfiguredPlace
    decide
  · exact (lower_sources_never_leak _ filesChange_oneSourceWorkspace).2.2.1 _ "" rfl rfl
      load_twoSourcesWorkspace rfl (hkeeps _ rfl)
  · refine (lower_sources_never_leak _ filesChange_oneSourceWorkspace).2.2.2.1 (.inl rfl) ?_
    intro file htext hfile
    cases hfile
  · refine ((lower_sources_never_leak _ filesChange_oneSourceWorkspace).2.1 "none" rfl rfl).2 ?_
    intro text rules hread
    have hmissing : twoSourcesWorkspace.readText "none" = .error .notFound := rfl
    rw [hmissing] at hread
    cases hread

end DeprecatedApi
