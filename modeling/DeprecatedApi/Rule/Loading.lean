import DeprecatedApi.Descriptor.ArgumentList
import DeprecatedApi.Json.Decode
import DeprecatedApi.Json.Parser
import DeprecatedApi.Log
import DeprecatedApi.Rule.Basic

/-!
# Loading rules

Rules are written as a JSON list of entries. An entry names the overloads it means
by a `signature`, which is a method descriptor or an argument list, or by
`arguments`, which is an argument list; a signature that is neither stays as it is,
and no call will ever have it. Loading gives all rules or none: the first entry
that cannot be loaded is the error.

* `Entry`: an entry as written.
* `Entry.load`: its rule, with what there is to tell about it.
* `RuleSet.parse`, `RuleSet.parseOrEmpty`: the rules of a text.
* `Rule.toJson`, `RuleSet.toJson`: rules as entries.
-/

namespace DeprecatedApi

/-! ## Entries -/

/-- An entry of a rule list, as written. -/
structure Entry where
  fqcn : String
  member : String
  signature : Option String
  arguments : Option String
  migration : Option String
  note : Option String
  deriving DecidableEq, Repr

namespace Entry

/-- The fields of an entry, in order. -/
def fieldNames : List String :=
  ["fqcn", "member", "signature", "arguments", "migration", "note"]

/-- Decodes an entry. -/
def ofJson? (j : Json) : Option Entry := do
  let r ← j.record? fieldNames
  return {
    fqcn := ← r.need? "fqcn" Json.text?
    member := ← r.need? "member" Json.text?
    signature := ← r.get? "signature" (Json.orNull? Json.text?) none
    arguments := ← r.get? "arguments" (Json.orNull? Json.text?) none
    migration := ← r.get? "migration" (Json.orNull? Json.text?) none
    note := ← r.get? "note" (Json.orNull? Json.text?) none }

end Entry

/-! ## Faults -/

/-- What is wrong with an entry. -/
inductive EntryFault where
  | emptyOwner
  | emptyMember
  | badArguments (fault : ArgumentList.Fault)
  deriving DecidableEq, Repr

/-- Why a text has no rules. -/
inductive RuleFault where
  /-- The text is no JSON list of entries. -/
  | malformed
  /-- The first entry that cannot be loaded. -/
  | badEntry (index : Nat) (fault : EntryFault)
  deriving DecidableEq, Repr

/-- The error of a bad argument list. -/
def ArgumentList.Fault.toError (fault : ArgumentList.Fault) : Error :=
  .ruleSet fault.message

/-- What a fault of an entry is called. -/
def EntryFault.message : EntryFault → String
  | .emptyOwner => "`fqcn` must not be empty"
  | .emptyMember => "`member` must not be empty"
  | .badArguments fault => fault.toError.message

/-- The error of a text without rules. -/
def RuleFault.toError : RuleFault → Error
  | .malformed => .ruleSet Json.verdict
  | .badEntry index fault => .ruleSet ("entry " ++ toString index ++ ": " ++ fault.message)

/-! ## From entries to rules -/

namespace Entry

/-- A text, unless it is empty. -/
def nonEmpty (text : Option String) : Option String :=
  text.filter (· != "")

/-- The signature that a configured one means: a method descriptor stays, an
argument list becomes one, and anything else stays too. -/
def normalize (signature : String) : String :=
  if isDescriptor signature then signature
  else
    match sourceArguments signature with
    | .ok descriptor => descriptor
    | .error _ => signature

/-- Tells that a signature was an argument list. -/
def conversionEvents (index : Nat) (signature : String) : List Event :=
  if isDescriptor signature then []
  else
    match sourceArguments signature with
    | .ok descriptor => [.converted index signature descriptor]
    | .error _ => []

/-- The signature of the rule of an entry. -/
def ruleSignature (e : Entry) : Except ArgumentList.Fault (Option String) :=
  match nonEmpty e.signature, nonEmpty e.arguments with
  | some signature, _ => .ok (some (normalize signature))
  | none, some arguments => (sourceArguments arguments).map some
  | none, none => .ok none

/-- Tells that an entry has both forms. -/
def bothFormsEvents (e : Entry) (index : Nat) : List Event :=
  if (nonEmpty e.signature).isSome && (nonEmpty e.arguments).isSome then
    [.bothForms index e.fqcn e.member]
  else []

/-- Tells that no call will ever have a signature. -/
def deadSignatureEvents (index : Nat) : Option String → List Event
  | none => []
  | some signature =>
    if isDescriptor signature then [] else [.deadSignature index signature]

/-- What there is to tell about an entry whose rule has the given signature. -/
def events (e : Entry) (index : Nat) (signature : Option String) : List Event :=
  e.bothFormsEvents index
    ++ ((nonEmpty e.signature).map (conversionEvents index)).getD []
    ++ deadSignatureEvents index signature

/-- The rule of the entry with the given index, and what there is to tell about it. -/
def load (index : Nat) (e : Entry) : Except EntryFault (Rule × List Event) :=
  if e.fqcn = "" then .error .emptyOwner
  else if e.member = "" then .error .emptyMember
  else
    match e.ruleSignature with
    | .error fault => .error (.badArguments fault)
    | .ok signature =>
      .ok (⟨e.fqcn, e.member, signature, e.migration, e.note⟩, e.events index signature)

/-- The rules of entries, the first of which has the given index. -/
def loadFrom (index : Nat) : List Entry → Logged (Except RuleFault RuleSet)
  | [] => pure (.ok [])
  | e :: rest =>
    match e.load index with
    | .error fault => pure (.error (.badEntry index fault))
    | .ok (rule, events) =>
      let later := loadFrom (index + 1) rest
      ⟨later.value.map (rule :: ·), events ++ later.events⟩

end Entry

/-! ## Rule texts -/

namespace RuleSet

/-- The entries of a rule text. -/
def entries? (text : String) : Option (List Entry) :=
  Json.parse? text >>= Json.list? Entry.ofJson?

/-- The rules of a list of entries. -/
def load (entries : List Entry) : Logged (Except RuleFault RuleSet) := do
  match ← Entry.loadFrom 0 entries with
  | .error fault => return .error fault
  | .ok rules =>
    Logged.tell (.rulesLoaded rules.length)
    return .ok rules

/-- The rules of a text. A blank text has none. -/
def parse (text : String) : Logged (Except RuleFault RuleSet) :=
  if Text.allBlank text then pure (.ok [])
  else
    match entries? text with
    | none => pure (.error .malformed)
    | some entries => load entries

/-- The rules of a text, or none if there is no text or it is refused. -/
def parseOrEmpty : Option String → Logged RuleSet
  | none => pure []
  | some text => do
    match ← parse text with
    | .ok rules => return rules
    | .error fault =>
      Logged.tell (.rulesRefused fault.toError)
      return []

end RuleSet

/-! ## Rules as entries -/

/-- A rule as an entry; what is absent is written `null`. -/
def Rule.toJson (rule : Rule) : Json :=
  .ofFields
    [("fqcn", .string rule.owner), ("member", .string rule.member),
     ("signature", .ofOption .string rule.signature),
     ("migration", .ofOption .string rule.migration), ("note", .ofOption .string rule.note)]

/-- Rules as a list of entries. -/
def RuleSet.toJson (rules : RuleSet) : Json :=
  .array (List.map Rule.toJson rules)

end DeprecatedApi
