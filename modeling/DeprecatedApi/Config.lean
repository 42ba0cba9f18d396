import DeprecatedApi.Log
import DeprecatedApi.Toml.Parser
import DeprecatedApi.Workspace

/-!
# Configuration

The root of an analysis may hold a configuration file. It names the rules, as text
or as a file, directories to pass over, and the form of the report.

* `Config`: what can be configured.
* `Config.parse?`: the configuration of a text.
* `Config.load`: the configuration at a root.
* `Config.rulesText`: the text of the configured rules.
-/

namespace DeprecatedApi

/-- How the configuration file is called. -/
def configFile : String :=
  "customdep.toml"

/-- The form of the report. -/
structure OutputSection where
  format : Option String
  deriving DecidableEq, Repr

/-- What can be configured. -/
structure Config where
  /-- The rules as text. -/
  deprecatedApis : Option String
  /-- The file with the rules, as seen from the root. -/
  deprecatedApisFile : Option String
  /-- Names of directories to pass over. -/
  ignore : Option (List String)
  output : Option OutputSection
  deriving DecidableEq, Repr

namespace Config

/-! ## Decoding -/

/-- A text. -/
def text? : Toml.Value → Option String
  | .string text => some text
  | _ => none

/-- A list of texts. -/
def texts? : Toml.Value → Option (List String)
  | .array items => items.mapM text?
  | _ => none

/-- An entry that may be missing. -/
def optional? {α : Type} (table : Toml.Table) (name : String)
    (decode : Toml.Value → Option α) : Option (Option α) :=
  match table.lookup name with
  | none => some none
  | some value => (decode value).map some

/-- The form of the report: a table, or an array that begins with the format. A date or
a time counts as a table in which nothing is set. -/
def output? : Toml.Value → Option OutputSection
  | .table _ entries => (optional? entries "format" text?).map OutputSection.mk
  | .array (format :: _) => (text? format).map fun text => ⟨some text⟩
  | .moment _ => some ⟨none⟩
  | _ => none

/-- Decodes a document. Unknown names are ignored. -/
def ofTable? (table : Toml.Table) : Option Config :=
  return {
    deprecatedApis := ← optional? table "deprecated_apis" text?
    deprecatedApisFile := ← optional? table "deprecated_apis_file" text?
    ignore := ← optional? table "ignore" texts?
    output := ← optional? table "output" output? }

/-- The configuration of a text. -/
def parse? (text : String) : Option Config :=
  Toml.parse? text >>= ofTable?

/-- How messages refer to a text that could not be read or decoded. -/
def verdict : String :=
  "<toml>"

/-! ## Use -/

/-- Whether a report in JSON is asked for. Letter case does not matter. -/
def wantsJson (config : Config) : Bool :=
  (config.output.bind OutputSection.format).any fun format =>
    format.toList.map Char.toLower == "json".toList

/-- The names of directories to pass over. -/
def ignored (config : Config) : List String :=
  config.ignore.getD []

/-- The path of the configuration file at a root. -/
def path (root : String) : String :=
  Path.join root configFile

/-- The configuration at a root, if there is one. -/
def load (ws : Workspace) (root : String) : Except Error (Option Config) :=
  if ws.isPresent (path root) then
    match ws.readText (path root) with
    | .error fault => .error (.io (path root) fault.message)
    | .ok text =>
      match parse? text with
      | none => .error (.config (path root) verdict)
      | some config => .ok (some config)
  else .ok none

/-- The text of the configured rules. Text in the configuration goes before a file;
a file that cannot be read gives no rules. -/
def rulesText (config : Config) (ws : Workspace) (root : String) : Logged (Option String) :=
  match config.deprecatedApis, config.deprecatedApisFile with
  | some text, _ => pure (some text)
  | none, none => pure none
  | none, some file =>
    match ws.readText (Path.join root file) with
    | .ok text => pure (some text)
    | .error fault => do
      Logged.tell (.configuredRulesUnreadable (Path.join root file) fault.message)
      return none

end Config

end DeprecatedApi
