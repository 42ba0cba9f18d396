import DeprecatedApi.Capacity
import DeprecatedApi.Report

/-!
# The command line

* `CommandLine.Options`: what the command line can ask for.
* `CommandLine.parse`: the meaning of arguments.
* `CommandLine.breakdown`: what is left of a run that breaks down.
* `CommandLine.run`: what the program prints, and its exit status.
-/

namespace DeprecatedApi

namespace CommandLine

/-- What the command line can ask for. -/
structure Options where
  /-- The root of the analysis. -/
  path : Option String
  /-- A file with rules. -/
  rules : Option String
  /-- Rules as text; they go before a file. -/
  rulesText : Option String
  /-- Whether to report in JSON. -/
  json : Bool
  /-- Names of directories to pass over. -/
  exclude : List String
  /-- Whether to ignore the configuration. -/
  noConfig : Bool
  /-- The severity of findings. -/
  severity : Option Severity
  /-- Whether findings make the program fail. -/
  failOnFindings : Bool
  deriving DecidableEq, Repr

/-- Nothing is asked for. -/
def Options.empty : Options :=
  ⟨none, none, none, false, [], false, none, false⟩

/-- The root of the analysis; the working directory unless another is given. -/
def Options.root (options : Options) : String :=
  options.path.getD "."

/-! ## Arguments -/

/-- An option that takes values. -/
inductive ValueOption where
  | rules
  | rulesText
  | exclude
  | severity
  deriving DecidableEq, Repr

/-- An option that takes none. -/
inductive Flag where
  | json
  | noConfig
  | failOnFindings
  deriving DecidableEq, Repr

/-- Why the program does not run an analysis. -/
inductive Stop where
  /-- The arguments make no sense. -/
  | usage
  | version
  | help
  deriving DecidableEq, Repr

/-- The options that take values, by name. -/
def valueOptions : List (String × ValueOption) :=
  [("rules", .rules), ("rules-text", .rulesText), ("exclude", .exclude),
   ("severity", .severity)]

/-- The options that take none, by name. -/
def flags : List (String × Flag) :=
  [("json", .json), ("no-config", .noConfig), ("fail-on-findings", .failOnFindings)]

/-- What may follow. -/
inductive Expecting where
  /-- Any argument. -/
  | anything
  /-- A value must follow. -/
  | valueOf (option : ValueOption)
  /-- More names of directories may follow. -/
  | moreExcludes
  deriving DecidableEq, Repr

/-- What has been read of the arguments. -/
structure Progress where
  options : Options
  expecting : Expecting
  /-- Whether the options have ended. -/
  ended : Bool
  deriving DecidableEq, Repr

/-- Nothing has been read. -/
def Progress.start : Progress :=
  ⟨.empty, .anything, false⟩

/-- Sets an option that may be given once. -/
def once {α : Type} (old : Option α) (new : α) : Except Stop (Option α) :=
  if old.isSome then .error .usage else .ok (some new)

/-- Sets an option to a value. -/
def Options.set (options : Options) (value : String) : ValueOption → Except Stop Options
  | .rules => (once options.rules value).map fun rules => { options with rules }
  | .rulesText =>
    (once options.rulesText value).map fun rulesText => { options with rulesText }
  | .exclude => .ok { options with exclude := options.exclude ++ [value] }
  | .severity =>
    match Severity.ofName? value with
    | none => .error .usage
    | some named => (once options.severity named).map fun severity => { options with severity }

/-- Raises a flag that may be given once. -/
def Options.raise (options : Options) : Flag → Except Stop Options
  | .json => if options.json then .error .usage else .ok { options with json := true }
  | .noConfig =>
    if options.noConfig then .error .usage else .ok { options with noConfig := true }
  | .failOnFindings =>
    if options.failOnFindings then .error .usage
    else .ok { options with failOnFindings := true }

/-- Reads an argument that is no option. -/
def Progress.positional (p : Progress) (arg : String) : Except Stop Progress :=
  match p.expecting with
  | .valueOf option =>
    (p.options.set arg option).map fun options =>
      { p with options, expecting := if option = .exclude then .moreExcludes else .anything }
  | .moreExcludes =>
    (p.options.set arg .exclude).map fun options => { p with options }
  | .anything =>
    (once p.options.path arg).map fun path => { p with options := { p.options with path } }

/-- Reads an argument after the end of the options. -/
def Progress.trailing (p : Progress) (arg : String) : Except Stop Progress :=
  (once p.options.path arg).map fun path => { p with options := { p.options with path } }

/-- Reads an option by its name, with the value after its equals sign. -/
def Progress.named (p : Progress) (name : String) (value : Option String) :
    Except Stop Progress :=
  match valueOptions.lookup name, value with
  | some option, some value =>
    (p.options.set value option).map fun options => { p with options, expecting := .anything }
  | some option, none => .ok { p with expecting := .valueOf option }
  | none, some _ => .error .usage
  | none, none =>
    match flags.lookup name with
    | some flag =>
      (p.options.raise flag).map fun options => { p with options, expecting := .anything }
    | none =>
      if name = "version" then .error .version
      else if name = "help" then .error .help
      else .error .usage

/-- Splits the text after two dashes at its first equals sign. -/
def splitEquals (cs : List Char) : String × Option String :=
  (String.ofList (cs.takeWhile (· != '=')),
    if cs.contains '=' then some (String.ofList ((cs.dropWhile (· != '=')).drop 1)) else none)

/-- Reads an argument that begins with a dash and has more. -/
def Progress.dashed (p : Progress) (cs : List Char) : Except Stop Progress :=
  match p.expecting, cs with
  | .valueOf _, _ => .error .usage
  | _, ['-'] => .ok { p with expecting := .anything, ended := true }
  | _, '-' :: rest => p.named (splitEquals rest).1 (splitEquals rest).2
  | _, 'V' :: _ => .error .version
  | _, 'h' :: _ => .error .help
  | _, _ => .error .usage

/-- Reads one more argument. -/
def Progress.step (p : Progress) (arg : String) : Except Stop Progress :=
  if p.ended then p.trailing arg
  else
    match arg.toList with
    | '-' :: c :: rest => p.dashed (c :: rest)
    | _ => p.positional arg

/-- The options of arguments that were all read. -/
def Progress.finish (p : Progress) : Except Stop Options :=
  match p.expecting with
  | .valueOf _ => .error .usage
  | _ => .ok p.options

/-- The meaning of arguments. -/
def parse (args : List String) : Except Stop Options :=
  args.foldlM Progress.step Progress.start >>= Progress.finish

/-! ## Running -/

/-- The settings of the analysis that is asked for. -/
def Options.settings (options : Options) : Settings where
  rulesText := options.rulesText
  rulesFile := if options.rulesText.isSome then none else options.rules
  useConfig := !options.noConfig
  excludes := options.exclude
  severity := options.severity

/-- What a program prints, and its exit status. -/
structure Output where
  exit : Nat
  stdout : String
  stderr : String
  deriving DecidableEq, Repr

/-- The line about the counts of an analysis. -/
def summary (stats : Stats) : String :=
  "Analyzed " ++ toString stats.filesAnalyzed ++ " file(s), " ++ toString stats.nodesVisited
    ++ " node(s), " ++ toString stats.ruleCount ++ " rule(s); skipped "
    ++ toString stats.filesSkipped ++ " file(s).\n"

/-- The report of an analysis. The counts go with a plain report only. -/
def Options.report (options : Options) (result : Result) : Output :=
  let exit := if options.failOnFindings && !result.findings.isEmpty then 1 else 0
  if options.json || result.preferJson then ⟨exit, jsonReport result.findings, ""⟩
  else ⟨exit, plainReport result.findings, summary result.stats⟩

/-- What stands for the runtime's own words about a breakdown. -/
def breakdownCause : String :=
  "<panic>"

/-- What is left of a run that breaks down. There is no report, and the exit status is not the
one that is announced. -/
def breakdown : Output :=
  ⟨101, "", "[PANIC] customdep internal error: " ++ breakdownCause
    ++ "\n[PANIC] The process will exit with code 2.\n"⟩

/-- Runs the analysis that is asked for. -/
def Options.run (options : Options) (ws : Workspace) : Output :=
  if options.settings.breaksDown ws options.root then breakdown
  else
    match (options.settings.analyze ws options.root).value with
    | .error fault =>
      let messages := ("Failed to analyze " ++ options.root) :: fault.messages
      ⟨2, "", "Error: " ++ String.intercalate ": " messages ++ "\n"⟩
    | .ok result => options.report result

/-- The name and version of the program. -/
def versionLine : String :=
  "customdep-cli 0.1.0\n"

/-- What the program can be asked for. -/
def helpText : String :=
  String.join ([
    "Project-specific deprecated API detector",
    "",
    "Usage: customdep [OPTIONS] [PATH]",
    "",
    "Arguments:",
    "  [PATH]  Fact file or directory containing *.facts.json files [default: .]",
    "",
    "Options:",
    "      --rules <FILE>          JSON file with the deprecated API list",
    "      --rules-text <JSON>     Deprecated API list as inline JSON (overrides --rules)",
    "      --json                  Output results in JSON format",
    "      --exclude <EXCLUDE>...  Directory names to skip while scanning",
    "      --no-config             Ignore customdep.toml",
    "      --severity <SEVERITY>   Severity attached to findings "
      ++ "[possible values: info, minor, major, critical]",
    "      --fail-on-findings      Exit with status 1 when any finding is reported",
    "  -h, --help                  Print help",
    "  -V, --version               Print version"].map (· ++ "\n"))

/-- What the program prints instead of a report. -/
def Stop.output : Stop → Output
  | .usage => ⟨2, "", "Usage: customdep [OPTIONS] [PATH]\n"⟩
  | .version => ⟨0, versionLine, ""⟩
  | .help => ⟨0, helpText, ""⟩

/-- Runs the program on arguments. -/
def run (args : List String) (ws : Workspace) : Output :=
  match parse args with
  | .error stop => stop.output
  | .ok options => options.run ws

end CommandLine

end DeprecatedApi
