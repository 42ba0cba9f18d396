import DeprecatedApi.Proofs.DescriptorGrammar
import DeprecatedApi.Proofs.RuleOrder

/-!
# Nested signatures

A rule without a signature means more overloads than a rule for some parameters, and this one
means more than a rule for one descriptor with these parameters. The texts may be anything: a
pattern is read off the first and the last character of a signature, and the parameters of an
observed method end at its first closing parenthesis.

* `parameterSection?_self`, `isParameterOnly_of_parameterSection?`: parameter sections as signatures.
* `parameterSection?_methodDescriptor_congr`: the result of a method has no say in its section.
* `Rule.IsNarrower`: one rule applies only where another does.
* `Rule.isNarrower_of_parameterSection?`, `Rule.isNarrower_of_unset`: the three forms are nested.
* `RuleSet.firstMatch?_eraseIdx`: a rule behind a broader one makes no difference.
* `signature_forms_are_nested`: what this means for rules and for overloads.
-/

namespace DeprecatedApi

/-! ## Parameter sections of any text -/

theorem parameterSection?_eq_some_iff {text part : String} :
    parameterSection? text = some part ↔
      ∃ inner rest, ')' ∉ inner ∧ part.toList = '(' :: inner ++ [')'] ∧
        text.toList = part.toList ++ rest := by
  rw [parameterSection?, Option.map_eq_some_iff]
  constructor
  · rintro ⟨cs, hcs, rfl⟩
    rw [String.toList_ofList]
    exact parameterSectionChars?_eq_some_iff.mp hcs
  · intro h
    exact ⟨part.toList, parameterSectionChars?_eq_some_iff.mpr h, String.ofList_toList⟩

section ParameterSection

variable {text part : String}

/-- A parameter section is its own parameter section. -/
theorem parameterSection?_self (h : parameterSection? text = some part) :
    parameterSection? part = some part := by
  obtain ⟨inner, -, hinner, hpart, -⟩ := parameterSection?_eq_some_iff.mp h
  exact parameterSection?_eq_some_iff.mpr ⟨inner, [], hinner, hpart, (List.append_nil _).symm⟩

/-- A parameter section names no result. -/
theorem isParameterOnly_of_parameterSection? (h : parameterSection? text = some part) :
    isParameterOnly part = true := by
  obtain ⟨inner, -, -, hpart, -⟩ := parameterSection?_eq_some_iff.mp h
  rw [isParameterOnly, hpart, List.getLast?_concat]
  rfl

theorem ne_empty_of_parameterSection? (h : parameterSection? text = some part) : text ≠ "" := by
  rintro rfl
  cases h

end ParameterSection

/-- What stands behind a closing parenthesis has no say in the parameter section. -/
theorem parameterSectionChars?_behind (inner rest : List Char) :
    parameterSectionChars? ('(' :: (inner ++ ')' :: rest))
      = parameterSectionChars? ('(' :: (inner ++ [')'])) := by
  simp [parameterSectionChars?, List.takeWhile_append]

/-- So the result of a method has none, even if the names of the parameters hold parentheses of
their own. -/
theorem parameterSection?_methodDescriptor_congr (parameters : List HostType)
    (result other : HostType) :
    parameterSection? (methodDescriptor parameters result)
      = parameterSection? (methodDescriptor parameters other) := by
  have hsection : ∀ r : HostType, parameterSection? (methodDescriptor parameters r)
      = (parameterSectionChars? ('(' ::
          ((parameters.map HostType.descriptor).flatMap TypeDescriptor.chars ++ [')']))).map
        String.ofList := by
    intro r
    rw [parameterSection?, methodDescriptor, MethodDescriptor.render, String.toList_ofList,
      MethodDescriptor.chars_eq_cons, parameterSectionChars?_behind]
    rfl
  rw [hsection result, hsection other]

/-! ## Nested patterns -/

namespace SignaturePattern

/-- What a signature means, its parameter section means too. -/
theorem accepts_of_parameterSection? {signature part : String}
    (hpart : parameterSection? signature = some part) {observed : Option String}
    (h : accepts (ofText? (some signature)) observed) :
    accepts (ofText? (some part)) observed := by
  rw [ofText?_of_isParameterOnly (isParameterOnly_of_parameterSection? hpart), accepts, beq_iff_eq]
  cases honly : isParameterOnly signature with
  | true =>
    -- only a text with one closing parenthesis is ever the parameter section of another one
    rw [ofText?_of_isParameterOnly honly, accepts, beq_iff_eq] at h
    obtain ⟨text, -, htext⟩ := Option.bind_eq_some_iff.mp h
    rw [h, ← hpart, parameterSection?_self htext]
  | false =>
    rw [ofText?_of_not_isParameterOnly (ne_empty_of_parameterSection? hpart) honly, accepts,
      beq_iff_eq] at h
    rw [h, Option.bind_some, hpart]

end SignaturePattern

/-! ## Broader rules first -/

namespace Rule

/-- A rule applies only where another one does. -/
def IsNarrower (narrow broad : Rule) : Prop :=
  ∀ reference, narrow.covers reference → broad.covers reference

/-- A rule is narrower than another one of the same owner and member whose pattern accepts
more. -/
theorem isNarrower_of_accepts {narrow broad : Rule} (howner : broad.owner = narrow.owner)
    (hmember : broad.member = narrow.member)
    (h : ∀ observed, narrow.pattern.accepts observed → broad.pattern.accepts observed) :
    narrow.IsNarrower broad := by
  intro reference hcovers
  rw [covers, Bool.and_eq_true] at hcovers ⊢
  rw [howner, hmember]
  exact ⟨hcovers.1, h _ hcovers.2⟩

/-- A rule with a signature is narrower than the rule for its parameters. -/
theorem isNarrower_of_parameterSection? {rule broad : Rule} {signature part : String}
    (hsignature : rule.signature = some signature) (hpart : parameterSection? signature = some part)
    (howner : broad.owner = rule.owner) (hmember : broad.member = rule.member)
    (hbroad : broad.signature = some part) : rule.IsNarrower broad := by
  refine isNarrower_of_accepts howner hmember fun observed h => ?_
  rw [pattern, hsignature] at h
  rw [pattern, hbroad]
  exact SignaturePattern.accepts_of_parameterSection? hpart h

/-- Every rule is narrower than the one without a signature. -/
theorem isNarrower_of_unset {rule broad : Rule} (howner : broad.owner = rule.owner)
    (hmember : broad.member = rule.member) (hbroad : broad.signature = none) :
    rule.IsNarrower broad := by
  refine isNarrower_of_accepts howner hmember fun observed _ => ?_
  rw [pattern, hbroad]
  rfl

end Rule

namespace RuleSet

section Shadowing

variable {rules : RuleSet} {narrow broad : Rule} {earlier later : Nat}

/-- A rule behind a broader one never counts. -/
theorem not_decides_of_isNarrower (h : narrow.IsNarrower broad) (hlt : earlier < later)
    (hbroad : rules[earlier]? = some broad) (reference : Reference) :
    ¬ rules.Decides reference later narrow := fun hdecides =>
  hdecides.first earlier hlt broad hbroad (h reference hdecides.applies)

/-- A rule behind a broader one makes no difference to the rule that is found. -/
theorem firstMatch?_eraseIdx (h : narrow.IsNarrower broad) (hlt : earlier < later)
    (hbroad : rules[earlier]? = some broad) (hnarrow : rules[later]? = some narrow)
    (reference : Reference) :
    RuleSet.firstMatch? (List.eraseIdx rules later) reference = rules.firstMatch? reference := by
  obtain ⟨hlater, hget⟩ := List.getElem?_eq_some_iff.mp hnarrow
  have hsplit : rules = rules.take later ++ narrow :: rules.drop (later + 1) := by
    rw [← hget, List.getElem_cons_drop, List.take_append_drop]
  rw [List.eraseIdx_eq_take_drop_succ]
  unfold firstMatch?
  conv_rhs => rw [hsplit]
  rw [List.find?_append, List.find?_append]
  cases hfound : List.find? (fun rule => rule.covers reference) (rules.take later) with
  | some rule => rfl
  | none =>
    -- the broader rule stands among those before, so neither of the two applies
    have hmem : broad ∈ rules.take later := by
      refine List.mem_of_getElem? (i := earlier) ?_
      rw [List.getElem?_take_of_lt hlt, hbroad]
    have hnot : ¬ narrow.covers reference := fun hcovers =>
      List.find?_eq_none.mp hfound broad hmem (h reference hcovers)
    rw [List.find?_cons_of_neg (p := fun rule : Rule => rule.covers reference) hnot]

end Shadowing

end RuleSet

/-! ## Overloads that differ in their results -/

namespace Rule

/-- A rule for some parameters does not see the result of a method. -/
theorem covers_callReference_congr {rule : Rule} {signature : String}
    (hsignature : rule.signature = some signature) (honly : isParameterOnly signature = true)
    {s t : Symbol} (howner : s.ownerName? = t.ownerName?) (hname : s.name = t.name)
    (hparameters : s.parameters = t.parameters) :
    rule.covers s.callReference = rule.covers t.callReference := by
  unfold covers Symbol.callReference
  rw [howner, hname, hparameters, pattern, hsignature,
    SignaturePattern.ofText?_of_isParameterOnly honly, SignaturePattern.accepts,
    SignaturePattern.accepts, Option.bind_some, Option.bind_some,
    parameterSection?_methodDescriptor_congr t.parameters s.returnType t.returnType]

/-- A rule for one descriptor applies to references with this descriptor alone. -/
theorem signature_eq_of_covers {rule : Rule} {signature : String}
    (hsignature : rule.signature = some signature) (hne : signature ≠ "")
    (honly : isParameterOnly signature = false) {reference : Reference}
    (h : rule.covers reference) : reference.signature = some signature := by
  rw [covers, Bool.and_eq_true, pattern, hsignature,
    SignaturePattern.ofText?_of_not_isParameterOnly hne honly, SignaturePattern.accepts,
    beq_iff_eq] at h
  exact h.2

end Rule

/-! ## Main result -/

/-- **The forms of a signature are nested.** A rule whose signature has a parameter section is
narrower than the rule for this section, and that one is narrower than the rule without a
signature. A rule that stands behind a broader one never counts, and leaving it out changes
nothing. A rule for some parameters applies to two methods alike that differ in their results
only, whatever the names of their types; and rules for two different descriptors never apply to
the same reference. -/
theorem signature_forms_are_nested :
    (∀ (rule byParameters wildcard : Rule) (signature part : String),
      rule.signature = some signature → parameterSection? signature = some part →
      byParameters.owner = rule.owner → byParameters.member = rule.member →
      byParameters.signature = some part →
      wildcard.owner = rule.owner → wildcard.member = rule.member → wildcard.signature = none →
      rule.IsNarrower byParameters ∧ byParameters.IsNarrower wildcard ∧
        rule.IsNarrower wildcard) ∧
    (∀ narrow broad : Rule, narrow.IsNarrower broad →
      ∀ (rules : RuleSet) (earlier later : Nat), earlier < later →
        rules[earlier]? = some broad → rules[later]? = some narrow →
        ∀ reference, ¬ rules.Decides reference later narrow ∧
          RuleSet.firstMatch? (List.eraseIdx rules later) reference
            = rules.firstMatch? reference) ∧
    (∀ (rule : Rule) (signature : String), rule.signature = some signature →
      isParameterOnly signature →
      ∀ s t : Symbol, s.ownerName? = t.ownerName? → s.name = t.name →
        s.parameters = t.parameters →
        ((Shape.call (some s)).reference?.any rule.covers
          ↔ (Shape.call (some t)).reference?.any rule.covers)) ∧
    (∀ (first second : Rule) (signature other : String), first.signature = some signature →
      second.signature = some other → signature ≠ "" → other ≠ "" →
      ¬ isParameterOnly signature → ¬ isParameterOnly other → signature ≠ other →
      ∀ reference, ¬ (first.covers reference ∧ second.covers reference)) := by
  refine ⟨?_, ?_, ?_, ?_⟩
  · intro rule byParameters wildcard signature part hsignature hpart howner hmember hpart'
      howner' hmember' hnone
    exact ⟨Rule.isNarrower_of_parameterSection? hsignature hpart howner hmember hpart',
      Rule.isNarrower_of_unset (howner'.trans howner.symm) (hmember'.trans hmember.symm) hnone,
      Rule.isNarrower_of_unset howner' hmember' hnone⟩
  · intro narrow broad h rules earlier later hlt hbroad hnarrow reference
    exact ⟨RuleSet.not_decides_of_isNarrower h hlt hbroad reference,
      RuleSet.firstMatch?_eraseIdx h hlt hbroad hnarrow reference⟩
  · intro rule signature hsignature honly s t howner hname hparameters
    show rule.covers s.callReference ↔ rule.covers t.callReference
    rw [Rule.covers_callReference_congr hsignature honly howner hname hparameters]
  · rintro first second signature other hfirst hsecond hne hne' honly honly' hdiffer reference
      ⟨hcovers, hcovers'⟩
    have heq := Rule.signature_eq_of_covers hfirst hne (by simpa using honly) hcovers
    have heq' := Rule.signature_eq_of_covers hsecond hne' (by simpa using honly') hcovers'
    exact hdiffer (Option.some.inj (heq.symm.trans heq'))

/-- A method with a parameter whose type has a parenthesis in its name. -/
def parenthesisMethod (result : HostType) : Symbol :=
  ⟨"m", .method, some ⟨some "a.B", true⟩, false, [.named (some "x)") none 0], result⟩

/-- A rule for this method with the given signature. -/
def parenthesisRule (signature : Option String) : Rule :=
  ⟨"a.B", "m", signature, none, none⟩

/-- The rule for the method without a result is narrower than the rule for the parameter section
of its signature, which ends inside the name, and does not count behind it. That rule applies to
the method with any result, and no rule for another descriptor applies together with the first. -/
theorem nested_forms_of_parenthesisMethod :
    parameterSection? "(Lx);)V" = some "(Lx)" ∧
    (parenthesisRule (some "(Lx);)V")).IsNarrower (parenthesisRule (some "(Lx)")) ∧
    (∀ reference, ¬ RuleSet.Decides
      [parenthesisRule (some "(Lx)"), parenthesisRule (some "(Lx);)V")] reference 1
      (parenthesisRule (some "(Lx);)V"))) ∧
    (parenthesisRule (some "(Lx);)V")).covers (parenthesisMethod .void).callReference ∧
    (∀ result, (Shape.call (some (parenthesisMethod result))).reference?.any
      (parenthesisRule (some "(Lx)")).covers) ∧
    ∀ reference, ¬ ((parenthesisRule (some "(Lx);)V")).covers reference ∧
      (parenthesisRule (some "(Lx);)I")).covers reference) := by
  have hpart : parameterSection? "(Lx);)V" = some "(Lx)" := by decide
  obtain ⟨hforms, hbehind, hresults, hfull⟩ := signature_forms_are_nested
  obtain ⟨hnarrow, -, -⟩ := hforms (parenthesisRule (some "(Lx);)V"))
    (parenthesisRule (some "(Lx)")) (parenthesisRule none) _ _ rfl hpart rfl rfl rfl rfl rfl rfl
  refine ⟨hpart, hnarrow, ?_, by decide, ?_, ?_⟩
  · intro reference
    exact (hbehind _ _ hnarrow [parenthesisRule (some "(Lx)"), parenthesisRule (some "(Lx);)V")]
      0 1 (by decide) rfl rfl reference).1
  · intro result
    have hvoid : (Shape.call (some (parenthesisMethod .void))).reference?.any
        (parenthesisRule (some "(Lx)")).covers := by
      decide
    exact (hresults _ _ rfl (by decide) (parenthesisMethod .void) (parenthesisMethod result)
      rfl rfl rfl).mp hvoid
  · exact hfull _ _ _ _ rfl rfl (by decide) (by decide) (by decide) (by decide) (by decide)

end DeprecatedApi
