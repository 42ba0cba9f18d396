import DeprecatedApi.Descriptor.Parser
import DeprecatedApi.Reference

/-!
# Rules

A rule declares a member of a type deprecated. Its signature says which overloads
it means: without one, all of them; a text in parentheses means the overloads with
these parameters; any other text means one method descriptor.

* `Rule`, `RuleSet`: rules in order.
* `SignaturePattern`: which overloads a rule means.
* `Rule.covers`, `RuleSet.firstMatch?`: whether a rule applies, and the one that counts.
* `Rule.message`: what users are told.
-/

namespace DeprecatedApi

/-- A deprecated member. -/
structure Rule where
  /-- The fully qualified name of the declaring type. -/
  owner : String
  /-- The name of the member. -/
  member : String
  /-- The overloads that are meant. -/
  signature : Option String
  /-- What to use instead. -/
  migration : Option String
  /-- A remark. -/
  note : Option String
  deriving DecidableEq, Repr

/-- Rules in order of precedence. -/
abbrev RuleSet := List Rule

/-! ## Overloads -/

/-- Which overloads a rule means. -/
inductive SignaturePattern where
  /-- All of them, and variables too. -/
  | any
  /-- Those with these parameters. -/
  | parameters (text : String)
  /-- The one with this descriptor. -/
  | full (text : String)
  deriving DecidableEq, Repr

namespace SignaturePattern

/-- The pattern of a configured signature. An empty one is none. -/
def ofText? : Option String → SignaturePattern
  | none => .any
  | some text =>
    if text = "" then .any
    else if isParameterOnly text then .parameters text
    else .full text

theorem ofText?_of_isParameterOnly {text : String} (h : isParameterOnly text = true) :
    ofText? (some text) = .parameters text := by
  have hne : text ≠ "" := by
    rintro rfl
    cases h
  rw [ofText?, if_neg hne, if_pos h]

theorem ofText?_of_not_isParameterOnly {text : String} (hne : text ≠ "")
    (h : isParameterOnly text = false) : ofText? (some text) = .full text := by
  rw [ofText?, if_neg hne, if_neg (by simp [h])]

/-- Whether a pattern means a method descriptor; `none` is a member without one. -/
def accepts (pattern : SignaturePattern) (observed : Option String) : Bool :=
  match pattern with
  | .any => true
  | .parameters text => observed.bind parameterSection? == some text
  | .full text => observed == some text

end SignaturePattern

/-! ## Application -/

namespace Rule

/-- The overloads that a rule means. -/
def pattern (rule : Rule) : SignaturePattern :=
  .ofText? rule.signature

/-- Whether a rule means all overloads. -/
def isWildcard (rule : Rule) : Bool :=
  rule.pattern == .any

/-- Whether a rule applies to a reference: owner and member are the same, character
by character, and the overload is one that the rule means. -/
def covers (rule : Rule) (reference : Reference) : Bool :=
  reference.owner == some rule.owner && reference.member == rule.member
    && rule.pattern.accepts reference.signature

end Rule

/-- The first rule that applies to a reference. -/
def RuleSet.firstMatch? (rules : RuleSet) (reference : Reference) : Option Rule :=
  List.find? (fun rule => rule.covers reference) rules

/-! ## Messages -/

/-- How every message begins. -/
def messageLead : String :=
  "This API is deprecated for this project. "

/-- What users are told: what to use instead, and the remark in parentheses. -/
def Rule.message (rule : Rule) : String :=
  let note := rule.note.getD ""
  messageLead ++ rule.migration.getD "" ++ (if note = "" then "" else " (" ++ note ++ ")")

end DeprecatedApi
