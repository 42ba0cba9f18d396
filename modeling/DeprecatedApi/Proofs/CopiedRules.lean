import DeprecatedApi.Check
import DeprecatedApi.Proofs.JsonRoundTrip
import DeprecatedApi.Proofs.OverloadSelection

/-!
# Rules copied from an observation

Whoever copies owner, member and descriptor of an observed call into a rule gets a rule for
this overload and for nothing else. The names of the types may hold anything, also what
makes the descriptor no well-formed one: loading and matching treat a signature in a special
way only if it ends in a parenthesis, and no observed descriptor does.

* `Entry.normalize_render`: loading keeps a descriptor with a result.
* `Rule.covers_iff_of_render`: a rule with such a signature applies to one reference.
* `overloadRuleText`: the text of a rule for one overload.
* `copied_rule_selects_overload`: from an observed node to the nodes that its rule flags.
-/

namespace DeprecatedApi

/-! ## Observed descriptors -/

/-- Whether a node is a call or a construction. -/
def Shape.isInvocation : Shape → Bool
  | .call _ => true
  | .construction _ => true
  | .memberAccess _ => false
  | .identifier _ _ => false

/-- Only calls and constructions have a descriptor, and it has a result. -/
theorem Shape.exists_render_of_reference? {shape : Shape} {owner : Option String}
    {member signature : String}
    (h : shape.reference? = some ⟨owner, member, some signature⟩) :
    shape.isInvocation = true ∧ ∃ ts t, signature = MethodDescriptor.render ⟨ts, some t⟩ := by
  cases shape with
  | call symbol =>
    obtain ⟨s, -, href⟩ := Option.map_eq_some_iff.mp h
    exact ⟨rfl, _, _, (Option.some.inj (Reference.mk.inj href).2.2).symm⟩
  | construction symbol =>
    obtain ⟨s, -, href⟩ := Option.map_eq_some_iff.mp h
    exact ⟨rfl, _, _, (Option.some.inj (Reference.mk.inj href).2.2).symm⟩
  | memberAccess symbol =>
    obtain ⟨s, -, href⟩ := Option.map_eq_some_iff.mp h
    cases (Reference.mk.inj href).2.2
  | identifier symbol role =>
    rw [reference?] at h
    split at h
    · cases h
    · obtain ⟨s, -, href⟩ := Option.map_eq_some_iff.mp h
      cases (Reference.mk.inj href).2.2

/-! ## Loading -/

/-- A descriptor with a result does not end in a parenthesis, and so is no argument list. -/
theorem ArgumentList.inner?_chars (ts : List TypeDescriptor) (t : TypeDescriptor) :
    inner? (MethodDescriptor.chars ⟨ts, some t⟩) = none := by
  obtain ⟨inner, last, hchars, hlast, hblank⟩ :=
    MethodDescriptor.exists_chars_eq_concat (rfl : MethodDescriptor.result ⟨ts, some t⟩ = some t)
  have htrim := Text.trimChars_eq_self (by decide : ¬ Text.isBlank '(') hblank inner
  have hne : ¬ (inner ++ [last]).getLast? = some ')' := by
    rw [List.getLast?_concat]
    exact fun h => hlast (Option.some.inj h)
  rw [inner?, hchars, htrim]
  exact if_neg hne

/-- Loading keeps a descriptor with a result, well-formed or not. -/
theorem Entry.normalize_render (ts : List TypeDescriptor) (t : TypeDescriptor) :
    normalize (MethodDescriptor.render ⟨ts, some t⟩)
      = MethodDescriptor.render ⟨ts, some t⟩ := by
  have hlist : sourceArguments (MethodDescriptor.render ⟨ts, some t⟩)
      = .error (.unparenthesized (MethodDescriptor.render ⟨ts, some t⟩)) := by
    rw [sourceArguments, ArgumentList.parse, MethodDescriptor.render, String.toList_ofList,
      ArgumentList.inner?_chars]
    rfl
  rw [normalize, hlist]
  split
  · rfl
  · rfl

/-! ## Matching -/

/-- A rule whose signature is a descriptor with a result applies to one reference. -/
theorem Rule.covers_iff_of_render {rule : Rule} {ts : List TypeDescriptor} {t : TypeDescriptor}
    (h : rule.signature = some (MethodDescriptor.render ⟨ts, some t⟩)) (reference : Reference) :
    rule.covers reference ↔ reference = ⟨some rule.owner, rule.member, rule.signature⟩ := by
  obtain ⟨owner, member, signature⟩ := reference
  rw [covers, pattern, h, SignaturePattern.ofText?_full, SignaturePattern.accepts,
    Bool.and_eq_true, Bool.and_eq_true, beq_iff_eq, beq_iff_eq, beq_iff_eq, Reference.mk.injEq,
    and_assoc]

/-- With a single rule, the nodes are flagged to whose reference it applies. -/
theorem isSome_checkNode_singleton (rule : Rule) (shape : Shape) :
    (checkNode [rule] shape).isSome ↔ ∃ reference, shape.reference? = some reference ∧
      rule.covers reference := by
  rw [checkNode, Option.isSome_map, brokenRule?]
  cases shape.reference? with
  | none => simp
  | some reference => simp [RuleSet.firstMatch?]

/-! ## Main result -/

/-- The text of a rule for one overload. -/
def overloadRuleText (owner member signature : String) : String :=
  (Json.array [.ofFields [("fqcn", .string owner), ("member", .string member),
    ("signature", .string signature)]]).compact

theorem entries?_overloadRuleText (owner member signature : String) :
    RuleSet.entries? (overloadRuleText owner member signature)
      = some [⟨owner, member, some signature, none, none, none⟩] := by
  have hwritable : Json.IsWritable (.array [.ofFields [("fqcn", .string owner),
      ("member", .string member), ("signature", .string signature)]]) :=
    .array (List.forall_mem_singleton.mpr (.ofFields ⟨.string _, .string _, .string _⟩))
  rw [RuleSet.entries?, overloadRuleText, Json.parse?_compact hwritable]
  rfl

/-- A rule for one overload is loaded as it is written, well-formed or not. -/
theorem value_parse_of_render {text owner member : String} {ts : List TypeDescriptor}
    {t : TypeDescriptor} (howner : owner ≠ "") (hmember : member ≠ "")
    (h : RuleSet.entries? text = some
      [⟨owner, member, some (MethodDescriptor.render ⟨ts, some t⟩), none, none, none⟩]) :
    (RuleSet.parse text).value = .ok
      [⟨owner, member, some (MethodDescriptor.render ⟨ts, some t⟩), none, none⟩] := by
  have hkept : Entry.nonEmpty (some (MethodDescriptor.render ⟨ts, some t⟩))
      = some (MethodDescriptor.render ⟨ts, some t⟩) := by
    simp [Entry.nonEmpty, MethodDescriptor.render_ne_empty]
  have hsignature : Entry.ruleSignature
      ⟨owner, member, some (MethodDescriptor.render ⟨ts, some t⟩), none, none, none⟩
      = .ok (some (MethodDescriptor.render ⟨ts, some t⟩)) := by
    rw [Entry.ruleSignature, hkept]
    show Except.ok (some (Entry.normalize _)) = _
    rw [Entry.normalize_render]
  rw [RuleSet.value_parse h, Entry.value_loadFrom_cons_eq_ok_iff]
  exact ⟨_, _, [], Entry.load_of_ruleSignature howner hmember hsignature 0, rfl, rfl⟩

/-- **A copied rule selects exactly the observed overload.** Take a node whose reference has an
owner, a member and a descriptor: a call or a construction of any symbol. Any text of the rule
with these three loads and keeps the descriptor as it is. The rule flags the node, and it flags
another exactly if that has the same owner, member and descriptor; so it flags no access to a
member and no identifier. -/
theorem copied_rule_selects_overload {shape : Shape} {owner member signature : String}
    (h : shape.reference? = some ⟨some owner, member, some signature⟩)
    (howner : owner ≠ "") (hmember : member ≠ "") :
    ∃ rule : Rule, rule = ⟨owner, member, some signature, none, none⟩ ∧
      (RuleSet.parse (overloadRuleText owner member signature)).value = .ok [rule] ∧
      (∀ text, RuleSet.entries? text = some [⟨owner, member, some signature, none, none, none⟩] →
        (RuleSet.parse text).value = .ok [rule]) ∧
      (checkNode [rule] shape).isSome ∧
      (∀ other : Shape, (checkNode [rule] other).isSome ↔
        other.reference? = some ⟨some owner, member, some signature⟩) ∧
      (∀ symbol, checkNode [rule] (.memberAccess symbol) = none) ∧
      ∀ symbol role, checkNode [rule] (.identifier symbol role) = none := by
  obtain ⟨-, ts, t, rfl⟩ := Shape.exists_render_of_reference? h
  let rule : Rule := ⟨owner, member, some (MethodDescriptor.render ⟨ts, some t⟩), none, none⟩
  have hflags : ∀ other : Shape, (checkNode [rule] other).isSome ↔
      other.reference? = some ⟨some owner, member, rule.signature⟩ := by
    intro other
    rw [isSome_checkNode_singleton]
    simp only [Rule.covers_iff_of_render (rfl : rule.signature = _), exists_eq_right, rule]
  have hother : ∀ other : Shape, other.isInvocation = false → checkNode [rule] other = none := by
    intro other hkind
    by_contra hflagged
    have href := (hflags other).mp (Option.isSome_iff_ne_none.mpr hflagged)
    rw [(Shape.exists_render_of_reference? href).1] at hkind
    cases hkind
  exact ⟨rule, rfl, value_parse_of_render howner hmember (entries?_overloadRuleText ..),
    fun text => value_parse_of_render howner hmember, (hflags shape).mpr h, hflags,
    fun symbol => hother _ rfl, fun symbol role => hother _ rfl⟩

/-- A method whose types have names with parentheses, so that its descriptor is no well-formed
one. -/
def oddMethod : Symbol :=
  ⟨"m", .method, some ⟨some "a.B", true⟩, false, [.named (some "x(y") none 0],
    .named none (some "z)") 0⟩

/-- The rule for the call of an odd method loads and flags this call, but not the construction
with the same parameters. -/
theorem copied_rule_of_oddMethod :
    isDescriptor "(Lx(y;)Lz);" = false ∧
    ∃ rule : Rule,
      (RuleSet.parse (overloadRuleText "a.B" "m" "(Lx(y;)Lz);")).value = .ok [rule] ∧
      (checkNode [rule] (.call (some oddMethod))).isSome ∧
      ¬ (checkNode [rule] (.construction (some oddMethod))).isSome := by
  have href : (Shape.call (some oddMethod)).reference?
      = some ⟨some "a.B", "m", some "(Lx(y;)Lz);"⟩ := by
    decide +kernel
  obtain ⟨rule, -, hparse, -, hflagged, hflags, -⟩ :=
    copied_rule_selects_overload href (by decide) (by decide)
  refine ⟨by decide +kernel, rule, hparse, hflagged, ?_⟩
  rw [hflags]
  decide +kernel

end DeprecatedApi
