import DeprecatedApi.Proofs.NameableTypes
import DeprecatedApi.Proofs.OverloadSelection

/-!
# Rules that never match

Loading warns of a signature that has not the form of a method descriptor. Such a rule is
dead: no call and no construction has this signature. The form alone does not make a rule
live, though: a class path in the signature must also be one that types are reported with.

* `Rule.IsLive`: some call or construction of legal types is covered by a rule.
* `RuleSet.WarnsOf`: what loading tells of an entry.
* `Rule.isLive_iff`: which signatures make a rule live.
* `RuleSet.warnsOf_iff`: which signatures are told of.
* `not_isLive_iff_warnsOf_or_not_isNameable`: the warning, and what escapes it.
-/

namespace DeprecatedApi

/-! ## Live rules -/

/-- A rule is live if it applies to a call or a construction of some symbol whose parameters
have legal types, and whose result has a legal type or is no value. -/
def Rule.IsLive (rule : Rule) : Prop :=
  ∃ symbol : Symbol, (∀ t ∈ symbol.parameters, t.IsLegal) ∧
    (symbol.returnType.IsLegal ∨ symbol.returnType.descriptor = .void) ∧
    ((Shape.call (some symbol)).reference?.any rule.covers ∨
      (Shape.construction (some symbol)).reference?.any rule.covers)

/-- A method descriptor whose types are nameable. -/
structure MethodDescriptor.IsNameable (m : MethodDescriptor) : Prop where
  parameters : ∀ t ∈ m.parameters, t.IsNameable
  result : ∀ t ∈ m.result, t.IsNameable

/-- The descriptor of a method with legal types is well-formed. -/
theorem MethodDescriptor.isWellFormed_ofHost {parameters : List HostType} {result : HostType}
    (hparameters : ∀ t ∈ parameters, t.IsLegal)
    (hresult : result.IsLegal ∨ result.descriptor = .void) :
    (ofHost parameters (some result)).IsWellFormed where
  parameters := by
    intro d hd
    obtain ⟨t, ht, rfl⟩ := List.mem_map.mp hd
    exact (hparameters t ht).descriptor
  result := by
    rintro _ ⟨⟩
    rcases hresult with hlegal | hvoid
    · exact hlegal.descriptor.2
    · rw [hvoid]
      exact .void

theorem MethodDescriptor.isNameable_ofHost (parameters : List HostType) (result : HostType) :
    (ofHost parameters (some result)).IsNameable where
  parameters := by
    intro d hd
    obtain ⟨t, -, rfl⟩ := List.mem_map.mp hd
    exact t.isNameable_descriptor
  result := by
    rintro _ ⟨⟩
    exact result.isNameable_descriptor

/-- A signature means a method exactly if it is its descriptor, with or without the result. -/
theorem SignaturePattern.accepts_render_iff {signature : String} (hne : signature ≠ "")
    {m : MethodDescriptor} (hwell : m.IsWellFormed) (hresult : m.result.isSome) :
    accepts (ofText? (some signature)) (some m.render)
      ↔ signature = m.parametersOnly.render ∨ signature = m.render := by
  have hfull : isParameterOnly m.render = false := by
    rw [m.isParameterOnly_render, Option.isNone_eq_false_iff.mpr hresult]
  rw [ofText?, if_neg hne]
  by_cases honly : isParameterOnly signature
  · have hnot : signature ≠ m.render := by
      rintro rfl
      rw [hfull] at honly
      cases honly
    rw [if_pos honly, accepts, Option.bind_some,
      MethodDescriptor.parameterSection?_render hwell.not_mem_path, beq_iff_eq, Option.some.injEq,
      or_iff_left hnot, eq_comm]
  · have hnot : signature ≠ m.parametersOnly.render := by
      rintro rfl
      exact honly (m.parametersOnly.isParameterOnly_render)
    rw [if_neg honly, accepts, beq_iff_eq, Option.some.injEq, or_iff_right hnot, eq_comm]

/-- A rule that is live has the descriptor of a method with legal types as its signature. -/
theorem Rule.exists_of_covers {rule : Rule} {signature : String}
    (hsignature : rule.signature = some signature) (hne : signature ≠ "")
    {parameters : List HostType} {result : HostType} (hparameters : ∀ t ∈ parameters, t.IsLegal)
    (hresult : result.IsLegal ∨ result.descriptor = .void) {owner : Option String}
    {member : String}
    (h : rule.covers ⟨owner, member, some (methodDescriptor parameters result)⟩) :
    ∃ m, MethodDescriptor.parse? signature = some m ∧ m.IsNameable := by
  have hwell := MethodDescriptor.isWellFormed_ofHost hparameters hresult
  have hname := MethodDescriptor.isNameable_ofHost parameters result
  rw [covers, pattern, hsignature, Bool.and_eq_true, methodDescriptor,
    SignaturePattern.accepts_render_iff hne hwell rfl] at h
  rcases h.2 with rfl | rfl
  · refine ⟨_, MethodDescriptor.parse?_render hwell.parametersOnly, hname.parameters, ?_⟩
    simp [MethodDescriptor.parametersOnly]
  · exact ⟨_, MethodDescriptor.parse?_render hwell, hname⟩

/-! ## A method for each descriptor -/

namespace HostType

/-- A well-formed descriptor that is nameable is that of a type, and of a legal one unless
it is no value. -/
theorem descriptor_ofDescriptor {t : TypeDescriptor} (hwell : t.IsWellFormed)
    (hname : t.IsNameable) :
    (ofDescriptor t).descriptor = t ∧ ((ofDescriptor t).IsLegal ∨ t = .void) := by
  cases hname with
  | void => exact ⟨rfl, .inr rfl⟩
  | field helement =>
    cases hwell with
    | field hwell =>
      obtain ⟨hlegal, hdescriptor⟩ := ofDescriptor_field hwell helement
      exact ⟨hdescriptor, .inl hlegal⟩

theorem map_descriptor_ofDescriptor {ts : List TypeDescriptor}
    (hwell : ∀ t ∈ ts, t ≠ .void ∧ t.IsWellFormed) (hname : ∀ t ∈ ts, t.IsNameable) :
    (ts.map ofDescriptor).map descriptor = ts ∧ ∀ t ∈ ts.map ofDescriptor, t.IsLegal := by
  constructor
  · rw [List.map_map]
    refine (List.map_congr_left fun t ht => ?_).trans (List.map_id ts)
    exact (descriptor_ofDescriptor (hwell t ht).2 (hname t ht)).1
  · refine List.forall_mem_map.mpr fun t ht => ?_
    rcases (descriptor_ofDescriptor (hwell t ht).2 (hname t ht)).2 with hlegal | hvoid
    · exact hlegal
    · exact absurd hvoid (hwell t ht).1

end HostType

/-- A rule is live if its signature is a descriptor of nameable types: it applies to a method
with just these types. -/
theorem Rule.isLive_of_isNameable {rule : Rule} {m : MethodDescriptor}
    (hsignature : rule.signature = some m.render) (hwell : m.IsWellFormed)
    (hname : m.IsNameable) : rule.IsLive := by
  obtain ⟨hparameters, hlegal⟩ :=
    HostType.map_descriptor_ofDescriptor hwell.parameters hname.parameters
  -- a signature without a result means methods with any, so also those that return no value
  obtain ⟨t, hwell', hname', hmeans⟩ : ∃ t : TypeDescriptor, t.IsWellFormed ∧ t.IsNameable ∧
      (m = ⟨m.parameters, none⟩ ∨ m = ⟨m.parameters, some t⟩) := by
    obtain ⟨parameters, result⟩ := m
    cases result with
    | none => exact ⟨.void, .void, .void, .inl rfl⟩
    | some t => exact ⟨t, hwell.result t rfl, hname.result t rfl, .inr rfl⟩
  obtain ⟨hresult, hlegal'⟩ := HostType.descriptor_ofDescriptor hwell' hname'
  let symbol : Symbol := ⟨rule.member, .method, some ⟨some rule.owner, true⟩, false,
    m.parameters.map .ofDescriptor, .ofDescriptor t⟩
  refine ⟨symbol, hlegal, hlegal'.imp_right hresult.trans, .inl ?_⟩
  have hobserved : methodDescriptor symbol.parameters symbol.returnType
      = MethodDescriptor.render ⟨m.parameters, some t⟩ := by
    rw [methodDescriptor, MethodDescriptor.ofHost, hparameters, Option.map_some, hresult]
  have hfull : MethodDescriptor.IsWellFormed ⟨m.parameters, some t⟩ :=
    ⟨hwell.parameters, by simpa using hwell'⟩
  have haccepts : rule.pattern.accepts (some (methodDescriptor symbol.parameters symbol.returnType))
      = true := by
    rw [pattern, hsignature, hobserved,
      SignaturePattern.accepts_render_iff m.render_ne_empty hfull rfl]
    exact hmeans.imp (congrArg _) (congrArg _)
  show rule.covers ⟨some rule.owner, rule.member, _⟩ = true
  rw [covers, haccepts, beq_self_eq_true, beq_self_eq_true]
  rfl

/-- **A rule with a signature is live exactly if the signature is a descriptor whose types
are nameable.** -/
theorem Rule.isLive_iff {rule : Rule} {signature : String}
    (hsignature : rule.signature = some signature) (hne : signature ≠ "") :
    rule.IsLive ↔ ∃ m, MethodDescriptor.parse? signature = some m ∧ m.IsNameable := by
  constructor
  · rintro ⟨symbol, hparameters, hresult, hcall | hconstruction⟩
    · exact exists_of_covers hsignature hne hparameters hresult hcall
    · exact exists_of_covers hsignature hne hparameters (.inr rfl) hconstruction
  · rintro ⟨m, hparse, hname⟩
    obtain ⟨rfl, hwell⟩ := MethodDescriptor.parse?_eq_some_iff.mp hparse
    exact isLive_of_isNameable hsignature hwell hname

/-! ## What loading tells -/

namespace Entry

/-- A signature that is no descriptor is told of. -/
theorem deadSignature_mem_events {e : Entry} {index : Nat} {signature : String}
    (h : isDescriptor signature = false) :
    .deadSignature index signature ∈ e.events index (some signature) := by
  rw [events, List.mem_append]
  refine .inr ?_
  rw [deadSignatureEvents, h]
  exact List.mem_singleton_self _

/-- **Step**: what is told about a list of entries is told about the first or the others. -/
theorem events_loadFrom_cons {first : Entry} {rest : List Entry} {index : Nat} {rule : Rule}
    {events : List Event} (h : first.load index = .ok (rule, events)) :
    (loadFrom index (first :: rest)).events = events ++ (loadFrom (index + 1) rest).events := by
  rw [loadFrom, h]

/-- **Run**: entries that load are told of exactly if their signatures are no descriptors. -/
theorem deadSignature_mem_loadFrom_iff {entries : List Entry} {index : Nat} {rules : RuleSet}
    (h : (loadFrom index entries).value = .ok rules) {i : Nat} {told : String} :
    .deadSignature i told ∈ (loadFrom index entries).events ↔
      ∃ k rule, i = index + k ∧ rules[k]? = some rule ∧ rule.signature = some told ∧
        isDescriptor told = false := by
  induction entries generalizing index rules with
  | nil =>
    cases h
    simp [loadFrom]
  | cons first rest ih =>
    obtain ⟨rule, events, later, hload, hlater, rfl⟩ := value_loadFrom_cons_eq_ok_iff.mp h
    obtain ⟨-, -, signature, -, hrule, hevents⟩ := load_eq_ok_iff.mp hload
    rw [events_loadFrom_cons hload, List.mem_append, ih hlater]
    constructor
    · rintro (hhere | ⟨k, later', rfl, hk, hsignature, hform⟩)
      · rw [hevents] at hhere
        rcases mem_events_cases hhere with heq | ⟨_, _, heq⟩ | ⟨text, htext, hform, heq⟩
        · cases heq
        · cases heq
        · cases heq
          exact ⟨0, rule, rfl, rfl, hrule ▸ htext, hform⟩
      · exact ⟨k + 1, later', by omega, hk, hsignature, hform⟩
    · rintro ⟨k, rule', rfl, hk, hsignature, hform⟩
      cases k with
      | zero =>
        cases hk
        left
        have hsome : signature = some told := by rw [← hsignature, hrule]
        rw [hevents, hsome]
        exact deadSignature_mem_events hform
      | succ k => exact .inr ⟨k, rule', by omega, hk, hsignature, hform⟩

end Entry

namespace RuleSet

/-- Loading a text warns of the entry with the given index. -/
def WarnsOf (text : String) (i : Nat) : Prop :=
  ∃ event ∈ (parse text).events,
    event.message = "signature is not a method descriptor and will never match" ∧
      ("entry", FieldValue.count i) ∈ event.fields

theorem warnsOf_iff_exists {text : String} {i : Nat} :
    WarnsOf text i ↔ ∃ told, .deadSignature i told ∈ (parse text).events := by
  constructor
  · rintro ⟨event, hmem, hmessage, hfield⟩
    cases event with
    | deadSignature entry told =>
      have hentry : i = entry := by simpa [Event.fields] using hfield
      exact ⟨told, hentry ▸ hmem⟩
    | _ => exact absurd hmessage (by simp [Event.message])
  · rintro ⟨told, hmem⟩
    exact ⟨_, hmem, rfl, List.mem_cons_self⟩

/-- A text that loads is blank, or has entries that load, and then tells of them and of
their number. -/
theorem parse_eq_ok_cases {text : String} {rules : RuleSet} (h : (parse text).value = .ok rules) :
    rules = [] ∨ ∃ entries, (Entry.loadFrom 0 entries).value = .ok rules ∧
      (parse text).events
        = (Entry.loadFrom 0 entries).events ++ [.rulesLoaded rules.length] := by
  rw [parse] at h ⊢
  split at h
  · cases h
    exact .inl rfl
  · rename_i hblank
    rw [if_neg hblank]
    split at h
    · cases h
    · rename_i entries _
      refine .inr ⟨entries, ?_⟩
      simp only [load, Logged.value_bind, Logged.events_bind] at h ⊢
      cases hload : (Entry.loadFrom 0 entries).value with
      | error fault =>
        rw [hload] at h
        cases h
      | ok loaded =>
        rw [hload] at h
        cases h
        exact ⟨rfl, rfl⟩

/-- **Loading warns of a rule exactly if its signature is no descriptor.** -/
theorem warnsOf_iff {text : String} {rules : RuleSet} (h : (parse text).value = .ok rules)
    {i : Nat} {rule : Rule} (hi : rules[i]? = some rule) {signature : String}
    (hsignature : rule.signature = some signature) :
    WarnsOf text i ↔ isDescriptor signature = false := by
  rw [warnsOf_iff_exists]
  rcases parse_eq_ok_cases h with rfl | ⟨entries, hload, hevents⟩
  · simp at hi
  · have hlast : ∀ told, .deadSignature i told ∈ (parse text).events ↔
        .deadSignature i told ∈ (Entry.loadFrom 0 entries).events := by
      intro told
      simp [hevents]
    simp only [hlast, Entry.deadSignature_mem_loadFrom_iff hload, Nat.zero_add]
    constructor
    · rintro ⟨told, k, rule', rfl, hk, htold, hform⟩
      rw [hi] at hk
      cases hk
      rw [hsignature] at htold
      cases htold
      exact hform
    · intro hform
      exact ⟨signature, i, rule, rfl, hi, hsignature, hform⟩

/-- The signature of a loaded rule is not empty. -/
theorem signature_ne_empty {text : String} {rules : RuleSet} (h : (parse text).value = .ok rules)
    {rule : Rule} (hrule : rule ∈ rules) {signature : String}
    (hsignature : rule.signature = some signature) : signature ≠ "" := by
  rcases parse_eq_ok_cases h with rfl | ⟨entries, hload, -⟩
  · cases hrule
  · obtain ⟨e, -, index, events, hentry⟩ := Entry.exists_of_mem_loadFrom hload hrule
    obtain ⟨-, -, loaded, hloaded, rfl, -⟩ := Entry.load_eq_ok_iff.mp hentry
    obtain rfl : loaded = some signature := hsignature
    exact Entry.ruleSignature_ne_empty hloaded

end RuleSet

/-! ## Main result -/

/-- **The warning, and what escapes it.** Take a rule with a signature of a text that loads.
Loading warns of it exactly if the signature has not the form of a descriptor. The rule is
dead exactly if loading warns of it, or the signature has the form of a descriptor and one of
its class paths is not one that types are reported with. -/
theorem not_isLive_iff_warnsOf_or_not_isNameable {text : String} {rules : RuleSet}
    (h : (RuleSet.parse text).value = .ok rules) {i : Nat} {rule : Rule}
    (hi : rules[i]? = some rule) {signature : String}
    (hsignature : rule.signature = some signature) :
    (RuleSet.WarnsOf text i ↔ isDescriptor signature = false) ∧
    (¬ rule.IsLive ↔ RuleSet.WarnsOf text i ∨
      ∃ m, MethodDescriptor.parse? signature = some m ∧ ¬ m.IsNameable) := by
  have hwarns := RuleSet.warnsOf_iff h hi hsignature
  have hne := RuleSet.signature_ne_empty h (List.mem_of_getElem? hi) hsignature
  refine ⟨hwarns, ?_⟩
  rw [hwarns, Rule.isLive_iff hsignature hne, isDescriptor]
  cases MethodDescriptor.parse? signature with
  | none => simp
  | some m => simp

/-- A rule with a signature that is no descriptor, and one with an argument list. -/
def nameAndListRuleText : String :=
  "[\x7b\"fqcn\":\"a.B\",\"member\":\"m\",\"signature\":\"m(int[])\"\x7d,"
    ++ "\x7b\"fqcn\":\"a.B\",\"member\":\"m\",\"signature\":\"(int[])\"\x7d]"

/-- The first rule is told of and dead, the second is neither. -/
theorem not_isLive_iff_of_nameAndListRuleText :
    ∃ first second : Rule, (RuleSet.parse nameAndListRuleText).value = .ok [first, second] ∧
      RuleSet.WarnsOf nameAndListRuleText 0 ∧ ¬ first.IsLive ∧
      ¬ RuleSet.WarnsOf nameAndListRuleText 1 ∧ second.IsLive := by
  have hparse : (RuleSet.parse nameAndListRuleText).value = .ok
      [⟨"a.B", "m", some "m(int[])", none, none⟩, ⟨"a.B", "m", some "([I)", none, none⟩] := by
    decide +kernel
  obtain ⟨hwarns, hdead⟩ :=
    not_isLive_iff_warnsOf_or_not_isNameable (i := 0) hparse rfl rfl
  obtain ⟨hwarns', hdead'⟩ :=
    not_isLive_iff_warnsOf_or_not_isNameable (i := 1) hparse rfl rfl
  have hfirst : RuleSet.WarnsOf nameAndListRuleText 0 := hwarns.mpr (by decide)
  have hsecond : ¬ RuleSet.WarnsOf nameAndListRuleText 1 := by
    rw [hwarns']
    decide
  refine ⟨_, _, hparse, hfirst, hdead.mpr (.inl hfirst), hsecond, ?_⟩
  by_contra hnot
  rcases hdead'.mp hnot with hwarned | ⟨m, hm, hunnameable⟩
  · exact hsecond hwarned
  · obtain rfl : ⟨[.field ⟨1, .primitive .int⟩], none⟩ = m := Option.some.inj hm
    exact hunnameable ⟨by simpa using .field (.primitive .int), by simp⟩

/-- A rule whose signature holds the class path `int`. -/
def primitivePathRuleText : String :=
  "[\x7b\"fqcn\":\"a.B\",\"member\":\"m\",\"signature\":\"(Lint;)V\"\x7d]"

/-- A signature has the form of a descriptor, and the rule is dead and not told of: a type with
the name `int` is reported as the primitive type, never as a class. -/
theorem dead_without_warning_of_primitivePathRuleText :
    ∃ rule : Rule, (RuleSet.parse primitivePathRuleText).value = .ok [rule] ∧
      rule.signature = some "(Lint;)V" ∧ ¬ RuleSet.WarnsOf primitivePathRuleText 0 ∧
      ¬ rule.IsLive := by
  have hparse : (RuleSet.parse primitivePathRuleText).value
      = .ok [⟨"a.B", "m", some "(Lint;)V", none, none⟩] := by
    decide +kernel
  refine ⟨_, hparse, rfl, ?_, ?_⟩
  · rw [RuleSet.warnsOf_iff (i := 0) hparse rfl rfl]
    decide
  · rw [Rule.isLive_iff rfl (by decide)]
    rintro ⟨m, hm, hname⟩
    obtain rfl : ⟨[.field ⟨0, .object "int"⟩], some .void⟩ = m := Option.some.inj hm
    cases hname.parameters _ (List.mem_singleton_self _) with
    | field helement =>
      cases helement with
      | object hpath => exact absurd hpath.notPrimitive (by decide)

end DeprecatedApi
