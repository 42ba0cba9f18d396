import DeprecatedApi.Proofs.CopiedRules
import DeprecatedApi.Proofs.FactForms
import DeprecatedApi.Proofs.FirstBadEntry
import DeprecatedApi.Proofs.RuleOrder

/-!
# Restricted rules

An entry that gives a signature or arguments, whatever they look like, becomes a rule for some
overloads only. Such a rule is never taken for one that means all of them: loading leaves no
empty signature behind, and what has no descriptor, like an access to a variable, is covered by
rules without a signature alone.

* `Shape.owner?`, `Shape.member?`: the owner and the member of a node.
* `RuleSet.Flags`: the rule that gives the finding of a node.
* `Entry.Carries.isWildcard_iff`: which entries become rules for all overloads.
* `RuleSet.Flags.isWildcard`: what flags an access or an identifier.
* `restricted_rules_never_widen`: from the text of the rules to the findings of a fact file.
-/

namespace DeprecatedApi

/-! ## Owner and member of a node -/

namespace Shape

/-- The type that declares what a node was resolved to, if it was resolved. -/
def owner? (shape : Shape) : Option String :=
  shape.symbol?.bind Symbol.ownerName?

/-- The member that a node was resolved to; a construction names no symbol but a constructor. -/
def member? : Shape → Option String
  | .construction symbol => symbol.map fun _ => constructorMember
  | shape => shape.symbol?.map Symbol.name

/-- A reference has the owner and the member of its node. -/
theorem owner?_of_reference? {shape : Shape} {reference : Reference}
    (h : shape.reference? = some reference) :
    shape.owner? = reference.owner ∧ shape.member? = some reference.member := by
  cases shape with
  | call symbol =>
    obtain ⟨s, rfl, rfl⟩ := Option.map_eq_some_iff.mp h
    exact ⟨rfl, rfl⟩
  | construction symbol =>
    obtain ⟨s, rfl, rfl⟩ := Option.map_eq_some_iff.mp h
    exact ⟨rfl, rfl⟩
  | memberAccess symbol =>
    obtain ⟨s, hs, rfl⟩ := Option.map_eq_some_iff.mp h
    obtain ⟨rfl, -⟩ := Option.filter_eq_some_iff.mp hs
    exact ⟨rfl, rfl⟩
  | identifier symbol role =>
    rw [reference?] at h
    split at h
    · cases h
    · obtain ⟨s, hs, rfl⟩ := Option.map_eq_some_iff.mp h
      obtain ⟨rfl, -⟩ := Option.filter_eq_some_iff.mp hs
      exact ⟨rfl, rfl⟩

/-- Accesses and identifiers have no descriptor. -/
theorem signature_of_not_isInvocation {shape : Shape} (hkind : shape.isInvocation = false)
    {reference : Reference} (h : shape.reference? = some reference) :
    reference.signature = none := by
  obtain ⟨owner, member, signature⟩ := reference
  cases signature with
  | none => rfl
  | some text =>
    rw [(exists_render_of_reference? h).1] at hkind
    cases hkind

end Shape

/-! ## Rules for all overloads -/

namespace Rule

/-- A rule means all overloads exactly if it has no signature, or an empty one. -/
theorem isWildcard_iff {rule : Rule} : rule.isWildcard ↔ Entry.IsUnset rule.signature := by
  rw [isWildcard, beq_iff_eq, pattern, Entry.IsUnset]
  cases rule.signature with
  | none => simp [SignaturePattern.ofText?]
  | some text =>
    by_cases hempty : text = ""
    · simp [SignaturePattern.ofText?, hempty]
    · by_cases honly : isParameterOnly text <;> simp [SignaturePattern.ofText?, hempty, honly]

/-- What has no descriptor is covered by rules for all overloads alone. -/
theorem isWildcard_of_covers {rule : Rule} {reference : Reference} (h : rule.covers reference)
    (hnone : reference.signature = none) : rule.isWildcard := by
  rw [covers, Bool.and_eq_true, hnone] at h
  rw [isWildcard, beq_iff_eq]
  cases hpattern : rule.pattern with
  | any => rfl
  | parameters text => simp [hpattern, SignaturePattern.accepts] at h
  | full text => simp [hpattern, SignaturePattern.accepts] at h

end Rule

namespace Entry

theorem ruleSignature_eq_ok_none_iff {e : Entry} :
    e.ruleSignature = .ok none ↔ IsUnset e.signature ∧ IsUnset e.arguments := by
  rw [ruleSignature, ← nonEmpty_eq_none_iff, ← nonEmpty_eq_none_iff]
  cases nonEmpty e.signature with
  | some signature => simp
  | none =>
    cases nonEmpty e.arguments with
    | none => simp
    | some list => cases hread : sourceArguments list <;> simp [hread, Except.map]

/-- The signature of a loaded rule is absent, or it is not empty. -/
theorem Carries.signature_ne_empty {e : Entry} {rule : Rule} (h : e.Carries rule) :
    rule.signature ≠ some "" := by
  intro hempty
  have hsignature := h.signature
  rw [hempty] at hsignature
  exact ruleSignature_ne_empty hsignature rfl

/-- An entry becomes a rule for all overloads exactly if it sets neither signature nor
arguments. -/
theorem Carries.isWildcard_iff {e : Entry} {rule : Rule} (h : e.Carries rule) :
    rule.isWildcard ↔ IsUnset e.signature ∧ IsUnset e.arguments := by
  rw [Rule.isWildcard_iff, ← ruleSignature_eq_ok_none_iff, h.signature, Except.ok.injEq]
  exact or_iff_left h.signature_ne_empty

end Entry

/-! ## Loaded rules and their findings -/

namespace RuleSet

/-- Each loaded rule is that of the entry at its place. -/
theorem exists_entry_of_parse {text : String} {rules : RuleSet}
    (h : (parse text).value = .ok rules) {index : Nat} {rule : Rule}
    (hrule : rules[index]? = some rule) :
    ∃ entries e, entries? text = some entries ∧ entries[index]? = some e ∧ ¬ e.IsBad ∧
      e.Carries rule := by
  cases hentries : entries? text with
  | none =>
    -- without entries there is an error, or the text is blank and there are no rules
    rw [parse, hentries] at h
    split at h
    · cases h
      cases hrule
    · cases h
  | some entries =>
    by_cases hgood : ∀ e ∈ entries, ¬ e.IsBad
    · obtain ⟨loaded, hcarries, hvalue, -⟩ := parse_of_forall_not_isBad hentries hgood
      obtain rfl : loaded = rules := Except.ok.inj (hvalue.symm.trans h)
      obtain ⟨hlt, hget⟩ := List.getElem?_eq_some_iff.mp hrule
      have hlt' : index < entries.length := hcarries.length_eq ▸ hlt
      refine ⟨entries, entries[index], rfl, List.getElem?_eq_getElem hlt',
        hgood _ (List.getElem_mem hlt'), ?_⟩
      rw [← hget]
      exact hcarries.get hlt' hlt
    · obtain ⟨first, fault, hblames⟩ := exists_blames hgood
      cases (parse_of_blames hentries hblames).1.symm.trans h

/-- The rule with the given index gives the finding of a node: it is the first that applies to
what the node refers to. -/
def Flags (rules : RuleSet) (index : Nat) (node : Node) : Prop :=
  ∃ reference rule, node.shape.reference? = some reference ∧ rules.Decides reference index rule

/-- The findings of a fact file are those that rules give its nodes. -/
theorem mem_checkUnit_iff {rules : RuleSet} {severity : Severity} {unit : FactFile}
    {finding : Finding} :
    finding ∈ (checkUnit rules severity unit).value ↔
      ∃ node ∈ unit.nodes, ∃ index rule, rules[index]? = some rule ∧ rules.Flags index node ∧
        finding = node.finding unit.file severity rule := by
  show finding ∈ unit.nodes.filterMap _ ↔ _
  rw [List.mem_filterMap]
  simp only [Node.check_eq_some_iff, firstMatch?_eq_some_iff]
  constructor
  · rintro ⟨node, hnode, reference, rule, hreference, ⟨index, hdecides⟩, rfl⟩
    exact ⟨node, hnode, index, rule, hdecides.stands, ⟨reference, rule, hreference, hdecides⟩, rfl⟩
  · rintro ⟨node, hnode, index, rule, hstands, ⟨reference, rule', hreference, hdecides⟩, rfl⟩
    obtain rfl : rule' = rule := Option.some.inj (hdecides.stands.symm.trans hstands)
    exact ⟨node, hnode, reference, rule', hreference, ⟨index, hdecides⟩, rfl⟩

section Flags

variable {rules : RuleSet} {index : Nat} {node : Node} {rule : Rule}

/-- A rule gives findings on nodes of its owner and its member alone. -/
theorem Flags.owner?_eq (h : rules.Flags index node) (hrule : rules[index]? = some rule) :
    node.shape.owner? = some rule.owner ∧ node.shape.member? = some rule.member := by
  obtain ⟨reference, decider, hreference, hdecides⟩ := h
  obtain rfl : decider = rule := Option.some.inj (hdecides.stands.symm.trans hrule)
  obtain ⟨howner, hmember⟩ := Shape.owner?_of_reference? hreference
  obtain ⟨howner', hmember'⟩ := Rule.eq_of_covers hdecides.applies
  exact ⟨howner.trans howner', hmember.trans (congrArg some hmember')⟩

/-- A rule that gives a finding on an access or an identifier means all overloads. -/
theorem Flags.isWildcard (h : rules.Flags index node) (hrule : rules[index]? = some rule)
    (hkind : node.shape.isInvocation = false) : rule.isWildcard := by
  obtain ⟨reference, decider, hreference, hdecides⟩ := h
  obtain rfl : decider = rule := Option.some.inj (hdecides.stands.symm.trans hrule)
  exact Rule.isWildcard_of_covers hdecides.applies
    (Shape.signature_of_not_isInvocation hkind hreference)

end Flags

end RuleSet

/-! ## Main result -/

/-- **A restricted rule never widens.** Take a text that loads. Each of its rules has an owner and
a member, and its signature is absent or not empty. It means all overloads exactly if its entry
sets neither signature nor arguments. So a rule whose entry sets one of them gives no finding on
an access or an identifier, and no rule gives a finding on a node whose owner is unresolved, or
whose owner or member is another. The findings of a fact file are those that rules give its
nodes. -/
theorem restricted_rules_never_widen {text : String} {rules : RuleSet}
    (h : (RuleSet.parse text).value = .ok rules) :
    (∀ index rule, rules[index]? = some rule →
      rule.owner ≠ "" ∧ rule.member ≠ "" ∧ rule.signature ≠ some "" ∧
      (∃ entries e, RuleSet.entries? text = some entries ∧ entries[index]? = some e ∧
        (rule.isWildcard ↔ Entry.IsUnset e.signature ∧ Entry.IsUnset e.arguments) ∧
        (¬ Entry.IsUnset e.signature ∨ ¬ Entry.IsUnset e.arguments →
          ∀ node : Node, node.shape.isInvocation = false → ¬ rules.Flags index node)) ∧
      ∀ node : Node, node.shape.owner? = none ∨ node.shape.owner? ≠ some rule.owner ∨
        node.shape.member? ≠ some rule.member → ¬ rules.Flags index node) ∧
    ∀ (severity : Severity) (unit : FactFile) (finding : Finding),
      finding ∈ (checkUnit rules severity unit).value ↔
        ∃ node ∈ unit.nodes, ∃ index rule, rules[index]? = some rule ∧ rules.Flags index node ∧
          finding = node.finding unit.file severity rule := by
  refine ⟨?_, fun severity unit finding => RuleSet.mem_checkUnit_iff⟩
  intro index rule hrule
  obtain ⟨entries, e, hentries, hget, hgood, hcarries⟩ := RuleSet.exists_entry_of_parse h hrule
  have howner : rule.owner ≠ "" := fun hempty => hgood (.inl (hcarries.owner ▸ hempty))
  have hmember : rule.member ≠ "" := fun hempty => hgood (.inr (.inl (hcarries.member ▸ hempty)))
  refine ⟨howner, hmember, hcarries.signature_ne_empty,
    ⟨entries, e, hentries, hget, hcarries.isWildcard_iff, ?_⟩, ?_⟩
  · intro hset node hkind hflags
    have hunset := hcarries.isWildcard_iff.mp (hflags.isWildcard hrule hkind)
    rcases hset with hset | hset
    · exact hset hunset.1
    · exact hset hunset.2
  · intro node hother hflags
    obtain ⟨howner', hmember'⟩ := hflags.owner?_eq hrule
    rcases hother with hnone | hother | hother
    · rw [howner'] at hnone
      cases hnone
    · exact hother howner'
    · exact hother hmember'

/-- Two entries for the variable `OLD`: one with a blank signature, one with the arguments of a
method without parameters. -/
def restrictedRuleText : String :=
  "[\x7b\"fqcn\":\"a.B\",\"member\":\"OLD\",\"signature\":\" \"\x7d,"
    ++ "\x7b\"fqcn\":\"a.B\",\"member\":\"OLD\",\"signature\":\"\",\"arguments\":\"()\"\x7d]"

/-- Neither rule means all overloads, and neither flags an access to the variable. -/
theorem restricted_rules_of_restrictedRuleText :
    ∃ first second : Rule, (RuleSet.parse restrictedRuleText).value = .ok [first, second] ∧
      ¬ first.isWildcard ∧ ¬ second.isWildcard ∧
      ∀ node : Node, node.shape = .memberAccess (some oldField) →
        ¬ RuleSet.Flags [first, second] 0 node ∧ ¬ RuleSet.Flags [first, second] 1 node := by
  let entries : List Entry := [⟨"a.B", "OLD", some " ", none, none, none⟩,
    ⟨"a.B", "OLD", some "", some "()", none, none⟩]
  have hentries : RuleSet.entries? restrictedRuleText = some entries := by
    decide +kernel
  have hparse : (RuleSet.parse restrictedRuleText).value = .ok
      [⟨"a.B", "OLD", some " ", none, none⟩, ⟨"a.B", "OLD", some "()", none, none⟩] := by
    rw [RuleSet.value_parse hentries]
    decide
  have hset : ∀ text : String, text ≠ "" → ¬ Entry.IsUnset (some text) := by
    simp [Entry.IsUnset]
  obtain ⟨hrules, -⟩ := restricted_rules_never_widen hparse
  obtain ⟨-, -, -, ⟨read, first, hread, hfirst, hwild, hflags⟩, -⟩ := hrules 0 _ rfl
  obtain ⟨-, -, -, ⟨read', second, hread', hsecond, hwild', hflags'⟩, -⟩ := hrules 1 _ rfl
  obtain rfl : entries = read := Option.some.inj (hentries.symm.trans hread)
  obtain rfl : entries = read' := Option.some.inj (hentries.symm.trans hread')
  cases hfirst
  cases hsecond
  refine ⟨_, _, hparse, fun hw => hset " " (by decide) (hwild.mp hw).1,
    fun hw => hset "()" (by decide) (hwild'.mp hw).2, ?_⟩
  intro node hnode
  have hkind : node.shape.isInvocation = false := by rw [hnode]; rfl
  exact ⟨hflags (.inl (hset " " (by decide))) node hkind,
    hflags' (.inr (hset "()" (by decide))) node hkind⟩

end DeprecatedApi
