import DeprecatedApi.Error

/-!
# Log events

Work that may have to tell something returns its events beside its value. An event
says what happened; its level, its wording and its fields follow from that.

* `Event`: what can be told, with `Event.level`, `Event.message`, `Event.fields`.
* `Logged`: a value with the events of its computation, in order.
-/

namespace DeprecatedApi

/-! ## Events -/

/-- How important an event is. -/
inductive Level where
  | warn
  | info
  | debug
  | trace
  deriving DecidableEq, Repr

/-- The name of a level. -/
def Level.name : Level → String
  | .warn => "WARN"
  | .info => "INFO"
  | .debug => "DEBUG"
  | .trace => "TRACE"

/-- Something worth telling. -/
inductive Event where
  /-- A rule entry has both a signature and an argument list. -/
  | bothForms (entry : Nat) (owner member : String)
  /-- The signature of a rule entry was an argument list. -/
  | converted (entry : Nat) (source target : String)
  /-- The signature of a rule entry is no method descriptor. -/
  | deadSignature (entry : Nat) (signature : String)
  /-- A rule text was loaded. -/
  | rulesLoaded (count : Nat)
  /-- A rule text was refused, and there are no rules. -/
  | rulesRefused (error : Error)
  /-- The rule file that the configuration names could not be read. -/
  | configuredRulesUnreadable (path detail : String)
  /-- The rule file that the settings name could not be read. -/
  | rulesFileUnreadable (path detail : String)
  /-- The configuration could not be used. -/
  | configIgnored (error : Error)
  /-- A fact file could not be used. -/
  | factFileSkipped (error : Error)
  /-- A deprecated API is used. -/
  | usage (owner member : String)
  /-- An analysis came to its end. -/
  | analysisComplete (rules files skipped findings : Nat)
  deriving DecidableEq, Repr

/-- The value of a field of an event. -/
inductive FieldValue where
  | text (value : String)
  | count (value : Nat)
  deriving DecidableEq, Repr

namespace Event

/-- How important an event is. -/
def level : Event → Level
  | .bothForms .. => .warn
  | .converted .. => .debug
  | .deadSignature .. => .warn
  | .rulesLoaded .. => .debug
  | .rulesRefused .. => .warn
  | .configuredRulesUnreadable .. => .warn
  | .rulesFileUnreadable .. => .warn
  | .configIgnored .. => .warn
  | .factFileSkipped .. => .warn
  | .usage .. => .trace
  | .analysisComplete .. => .info

/-- The wording of an event. -/
def message : Event → String
  | .bothForms .. => "both `signature` and `arguments` set; using `signature`"
  | .converted .. => "converted source-style signature"
  | .deadSignature .. => "signature is not a method descriptor and will never match"
  | .rulesLoaded .. => "loaded deprecated API rules"
  | .rulesRefused .. => "Failed to parse deprecated API configuration; running with no rules"
  | .configuredRulesUnreadable .. => "cannot read deprecated API file"
  | .rulesFileUnreadable .. => "cannot read rules file; running with no rules"
  | .configIgnored .. => "ignoring configuration file; running without it"
  | .factFileSkipped .. => "skipping fact file"
  | .usage .. => "deprecated API usage"
  | .analysisComplete .. => "analysis complete"

/-- The fields of an event. -/
def fields : Event → List (String × FieldValue)
  | .bothForms entry owner member =>
    [("entry", .count entry), ("fqcn", .text owner), ("member", .text member)]
  | .converted entry source target =>
    [("entry", .count entry), ("from", .text source), ("to", .text target)]
  | .deadSignature entry signature =>
    [("entry", .count entry), ("signature", .text signature)]
  | .rulesLoaded count => [("count", .count count)]
  | .rulesRefused error => [("error", .text error.message)]
  | .configuredRulesUnreadable path detail =>
    [("path", .text path), ("error", .text detail)]
  | .rulesFileUnreadable path detail => [("path", .text path), ("error", .text detail)]
  | .configIgnored error => [("error", .text error.message)]
  | .factFileSkipped error => [("error", .text error.message)]
  | .usage owner member => [("owner", .text owner), ("member", .text member)]
  | .analysisComplete rules files skipped findings =>
    [("rules", .count rules), ("files", .count files), ("skipped", .count skipped),
     ("findings", .count findings)]

end Event

/-! ## Values with events -/

/-- A value with the events of its computation, in order. -/
structure Logged (α : Type) where
  value : α
  events : List Event

namespace Logged

variable {α β : Type}

/-- A computation that tells nothing. -/
def quiet (value : α) : Logged α :=
  ⟨value, []⟩

/-- A computation that tells one thing. -/
def tell (event : Event) : Logged Unit :=
  ⟨(), [event]⟩

/-- One computation after the other. -/
def andThen (first : Logged α) (next : α → Logged β) : Logged β :=
  ⟨(next first.value).value, first.events ++ (next first.value).events⟩

instance : Monad Logged where
  pure := quiet
  bind := andThen

@[simp] theorem value_pure (a : α) : (pure a : Logged α).value = a := rfl

@[simp] theorem events_pure (a : α) : (pure a : Logged α).events = [] := rfl

@[simp] theorem value_bind (x : Logged α) (f : α → Logged β) :
    (x >>= f).value = (f x.value).value := rfl

@[simp] theorem events_bind (x : Logged α) (f : α → Logged β) :
    (x >>= f).events = x.events ++ (f x.value).events := rfl

@[simp] theorem value_tell (e : Event) : (tell e).value = () := rfl

@[simp] theorem events_tell (e : Event) : (tell e).events = [e] := rfl

end Logged

end DeprecatedApi
