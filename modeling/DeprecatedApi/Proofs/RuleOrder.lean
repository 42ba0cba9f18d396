import DeprecatedApi.Proofs.UsageReports

/-!
# The order of rules

Several rules may apply to one use. All of them name the same owner and the same member, so
which of them comes first matters to the message alone: whether there is a finding does not
depend on the order of the rules, nor on repetitions. More rules at the end only add findings.

* `RuleSet.Decides`: the rule that counts for a reference.
* `RuleSet.firstMatch?_eq_some_iff`: it is the one that is found.
* `Node.map_withoutMessage_check`: rules in another order give the same finding but for its
  message.
* `Node.check_append`: a finding is kept when rules are added at the end.
* `rule_order_decides_only_messages`: what this means for a fact file.
-/

namespace DeprecatedApi

/-! ## The rule that counts -/

/-- A rule counts for a reference: it applies, and no rule before it does. -/
structure RuleSet.Decides (rules : RuleSet) (reference : Reference) (index : Nat) (rule : Rule) :
    Prop where
  stands : rules[index]? = some rule
  applies : rule.covers reference
  first : ∀ earlier < index, ∀ other, rules[earlier]? = some other → ¬ other.covers reference

theorem RuleSet.firstMatch?_eq_some_iff {rules : RuleSet} {reference : Reference} {rule : Rule} :
    rules.firstMatch? reference = some rule ↔ ∃ index, rules.Decides reference index rule := by
  unfold firstMatch?
  rw [List.find?_eq_some_iff_getElem]
  constructor
  · rintro ⟨happlies, index, hindex, hrule, hfirst⟩
    refine ⟨index, ?_, happlies, ?_⟩
    · rw [List.getElem?_eq_getElem hindex, hrule]
    · intro earlier hearlier other hother
      obtain ⟨hlt, rfl⟩ := List.getElem?_eq_some_iff.mp hother
      simpa using hfirst earlier hearlier
  · rintro ⟨index, hstands, happlies, hfirst⟩
    obtain ⟨hindex, hrule⟩ := List.getElem?_eq_some_iff.mp hstands
    refine ⟨happlies, index, hindex, hrule, ?_⟩
    intro earlier hearlier
    have hlt : earlier < List.length rules := by omega
    simpa using hfirst earlier hearlier _ (List.getElem?_eq_getElem hlt)

/-- All rules that apply to a reference name its owner and its member. -/
theorem Rule.eq_of_covers {rule : Rule} {reference : Reference} (h : rule.covers reference) :
    reference.owner = some rule.owner ∧ reference.member = rule.member := by
  unfold covers at h
  rw [Bool.and_eq_true, Bool.and_eq_true, beq_iff_eq, beq_iff_eq] at h
  exact h.1

/-! ## One node -/

/-- A finding but for its message. -/
def Finding.withoutMessage (finding : Finding) : Finding :=
  { finding with message := "" }

section Checking

variable {rules : RuleSet} {severity : Severity} {file : String} {node : Node}

/-- A node gives a finding exactly if a rule applies to its reference, whose owner then is
known. -/
theorem Node.isSome_check_iff :
    (node.check file severity rules).isSome ↔
      ∃ reference owner, node.shape.reference? = some reference ∧
        reference.owner = some owner ∧ ∃ rule ∈ rules, rule.covers reference := by
  rw [Node.isSome_check]
  unfold Shape.isDeprecated
  rw [Option.any_eq_true]
  constructor
  · rintro ⟨reference, hreference, hany⟩
    obtain ⟨rule, hrule, happlies⟩ := List.any_eq_true.mp hany
    exact ⟨reference, rule.owner, hreference, (Rule.eq_of_covers happlies).1, rule, hrule,
      happlies⟩
  · rintro ⟨reference, owner, hreference, -, hrule⟩
    exact ⟨reference, hreference, List.any_eq_true.mpr hrule⟩

/-- The finding of a node names what the node refers to, and has the message of the rule that
counts. -/
theorem Node.decides_of_check {finding : Finding}
    (h : node.check file severity rules = some finding) :
    ∃ reference index rule, node.shape.reference? = some reference ∧
      rules.Decides reference index rule ∧ reference.owner = some finding.owner ∧
      reference.member = finding.member ∧ finding.message = rule.message := by
  obtain ⟨reference, rule, hreference, hfirst, rfl⟩ :=
    (Node.check_eq_some_iff rules severity file).mp h
  obtain ⟨index, hdecides⟩ := RuleSet.firstMatch?_eq_some_iff.mp hfirst
  obtain ⟨howner, hmember⟩ := Rule.eq_of_covers hdecides.applies
  exact ⟨reference, index, rule, hreference, hdecides, howner, hmember, rfl⟩

/-- The same rules in another order, or with repetitions, give the same finding but for its
message. -/
theorem Node.map_withoutMessage_check {others : RuleSet}
    (h : ∀ rule, rule ∈ others ↔ rule ∈ rules) (node : Node) :
    (node.check file severity others).map Finding.withoutMessage
      = (node.check file severity rules).map Finding.withoutMessage := by
  have hsome : (node.check file severity others).isSome
      ↔ (node.check file severity rules).isSome := by
    rw [Node.isSome_check_iff, Node.isSome_check_iff]
    simp only [h]
  cases hothers : node.check file severity others with
  | none =>
    cases hrules : node.check file severity rules with
    | none => rfl
    | some finding => simp [hothers, hrules] at hsome
  | some found =>
    cases hrules : node.check file severity rules with
    | none => simp [hothers, hrules] at hsome
    | some finding =>
      obtain ⟨reference, other, hreference, hother, rfl⟩ :=
        (Node.check_eq_some_iff others severity file).mp hothers
      obtain ⟨reference', rule, hreference', hrule, rfl⟩ :=
        (Node.check_eq_some_iff rules severity file).mp hrules
      rw [hreference] at hreference'
      cases hreference'
      -- both rules apply to the reference, and so name its owner and its member
      obtain ⟨_, hother⟩ := RuleSet.firstMatch?_eq_some_iff.mp hother
      obtain ⟨_, hrule⟩ := RuleSet.firstMatch?_eq_some_iff.mp hrule
      obtain ⟨howner, hmember⟩ := Rule.eq_of_covers hother.applies
      obtain ⟨howner', hmember'⟩ := Rule.eq_of_covers hrule.applies
      have hsameOwner : other.owner = rule.owner := Option.some.inj (howner.symm.trans howner')
      have hsameMember : other.member = rule.member := hmember.symm.trans hmember'
      simp [Finding.withoutMessage, Node.finding, hsameOwner, hsameMember]

/-- The rule that counts still counts when rules are added at the end. -/
theorem RuleSet.firstMatch?_append {reference : Reference} {rule : Rule}
    (h : rules.firstMatch? reference = some rule) (more : RuleSet) :
    RuleSet.firstMatch? (rules ++ more) reference = some rule := by
  unfold firstMatch? at h ⊢
  rw [List.find?_append, h]
  rfl

theorem Node.check_append {finding : Finding} (h : node.check file severity rules = some finding)
    (more : RuleSet) : node.check file severity (rules ++ more) = some finding := by
  rw [Node.check_eq_some_iff] at h ⊢
  obtain ⟨reference, rule, hreference, hfirst, hfinding⟩ := h
  exact ⟨reference, rule, hreference, RuleSet.firstMatch?_append hfirst more, hfinding⟩

end Checking

/-! ## Fact files -/

/-- If all nodes that are reported keep their findings, the findings are kept in their order. -/
theorem sublist_filterMap_check {nodes : List Node} {before after : Node → Option Finding}
    (h : ∀ node finding, before node = some finding → after node = some finding) :
    (nodes.filterMap before).Sublist (nodes.filterMap after) := by
  induction nodes with
  | nil => exact .slnil
  | cons node nodes ih =>
    cases hbefore : before node with
    | none =>
      rw [List.filterMap_cons_none hbefore]
      cases hafter : after node with
      | none =>
        rw [List.filterMap_cons_none hafter]
        exact ih
      | some finding =>
        rw [List.filterMap_cons_some hafter]
        exact ih.cons finding
    | some finding =>
      rw [List.filterMap_cons_some hbefore, List.filterMap_cons_some (h node finding hbefore)]
      exact ih.cons_cons finding

/-- **The order of rules decides messages only.** The findings of a fact file are those of its
nodes, one after the other. A node has one exactly if its reference has a known owner and some
rule applies to it; the finding names the owner and the member of the reference, and its message
is that of the first rule that applies. So the same rules in any order and with any repetitions
give findings that are equal in every field but the message, and further rules at the end only
add findings between the ones that there were. -/
theorem rule_order_decides_only_messages (rules : RuleSet) (severity : Severity)
    (unit : FactFile) :
    (checkUnit rules severity unit).value
      = unit.nodes.filterMap (fun node => node.check unit.file severity rules) ∧
    (∀ node : Node, (node.check unit.file severity rules).isSome ↔
      ∃ reference owner, node.shape.reference? = some reference ∧
        reference.owner = some owner ∧ ∃ rule ∈ rules, rule.covers reference) ∧
    (∀ (node : Node) (finding : Finding), node.check unit.file severity rules = some finding →
      ∃ reference index rule, node.shape.reference? = some reference ∧
        rules.Decides reference index rule ∧ reference.owner = some finding.owner ∧
        reference.member = finding.member ∧ finding.message = rule.message) ∧
    (∀ others : RuleSet, (∀ rule, rule ∈ others ↔ rule ∈ rules) →
      (checkUnit others severity unit).value.map Finding.withoutMessage
        = (checkUnit rules severity unit).value.map Finding.withoutMessage) ∧
    ∀ more : RuleSet,
      (checkUnit rules severity unit).value.Sublist
        (checkUnit (rules ++ more) severity unit).value ∧
      ∀ (node : Node) (finding : Finding), node.check unit.file severity rules = some finding →
        node.check unit.file severity (rules ++ more) = some finding := by
  refine ⟨rfl, fun node => Node.isSome_check_iff, fun node finding => Node.decides_of_check,
    ?_, ?_⟩
  · intro others hsame
    show (unit.nodes.filterMap _).map _ = (unit.nodes.filterMap _).map _
    rw [List.map_filterMap, List.map_filterMap]
    exact List.filterMap_congr fun node _ => node.map_withoutMessage_check hsame
  · intro more
    refine ⟨sublist_filterMap_check ?_, ?_⟩
    · intro node finding hfinding
      exact Node.check_append hfinding more
    · intro node finding hfinding
      exact Node.check_append hfinding more

/-- A rule for all methods `run` of the class `a.B`. -/
def everyRun : Rule :=
  ⟨"a.B", "run", none, some "Use walk.", none⟩

/-- A rule for the method `run` without parameters. -/
def bareRun : Rule :=
  ⟨"a.B", "run", some "()V", some "Use walk().", none⟩

/-- The two rules in either order give the same finding with another message, and a rule for a
variable beside them another finding. -/
theorem rule_order_in_accessInsideCall :
    (checkUnit [bareRun, everyRun, bareRun] .minor accessInsideCall).value.map
        Finding.withoutMessage
      = (checkUnit [everyRun, bareRun] .minor accessInsideCall).value.map
        Finding.withoutMessage ∧
    (checkUnit [bareRun, everyRun, bareRun] .minor accessInsideCall).value
      ≠ (checkUnit [everyRun, bareRun] .minor accessInsideCall).value ∧
    (checkUnit [everyRun, bareRun] .minor accessInsideCall).value.Sublist
      (checkUnit ([everyRun, bareRun] ++ [⟨"a.B", "OLD", none, none, none⟩]) .minor
        accessInsideCall).value := by
  obtain ⟨-, -, -, horder, hmore⟩ :=
    rule_order_decides_only_messages [everyRun, bareRun] .minor accessInsideCall
  refine ⟨horder _ ?_, by decide +kernel, (hmore _).1⟩
  intro rule
  simp only [List.mem_cons, List.not_mem_nil, or_false]
  tauto

end DeprecatedApi
