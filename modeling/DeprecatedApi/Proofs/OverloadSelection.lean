import DeprecatedApi.Proofs.ArgumentLists
import DeprecatedApi.Proofs.DescriptorGrammar
import DeprecatedApi.Proofs.RuleLoading

/-!
# Selecting overloads by an argument list

A rule that gives an argument list means the overloads whose parameters have the types of
the list, one by one, and no others.

* `parameterSection?_methodDescriptor`: the parameters of an observed method can be cut out.
* `Rule.covers_method_iff`: when a rule for a list of types applies to a method.
* `Entry.GivesArguments`: entries that give an argument list, in either field.
* `covers_iff_of_givesArguments`: from the text of the rule to the overloads it means.
-/

namespace DeprecatedApi

/-! ## Parameter sections -/

/-- The first closing parenthesis of an observed method ends its parameters. -/
theorem parameterSection?_methodDescriptor {parameters : List HostType}
    (h : ∀ t ∈ parameters, t.Avoids ')') (result : HostType) :
    parameterSection? (methodDescriptor parameters result)
      = some (parameterDescriptor parameters) := by
  have hobject := Element.not_mem_anyObject_path (.inr rfl : ')' = ';' ∨ ')' = ')')
  exact MethodDescriptor.parameterSection?_render (HostType.descriptors_avoid hobject h)

/-! ## Rules for a list of types -/

/-- The text of parameters without a result means the overloads with these parameters. -/
theorem SignaturePattern.ofText?_parameters (ts : List TypeDescriptor) :
    ofText? (some (MethodDescriptor.render ⟨ts, none⟩))
      = .parameters (MethodDescriptor.render ⟨ts, none⟩) :=
  ofText?_of_isParameterOnly (MethodDescriptor.isParameterOnly_render ⟨ts, none⟩)

/-- The text of a method with its result means this method. -/
theorem SignaturePattern.ofText?_full (ts : List TypeDescriptor) (t : TypeDescriptor) :
    ofText? (some (MethodDescriptor.render ⟨ts, some t⟩))
      = .full (MethodDescriptor.render ⟨ts, some t⟩) :=
  ofText?_of_not_isParameterOnly (MethodDescriptor.render_ne_empty _)
    (MethodDescriptor.isParameterOnly_render ⟨ts, some t⟩)

/-- The descriptor of a written name is that of a field type. -/
theorem nameDescriptor_eq_render (name : String) (extra : Nat) :
    nameDescriptor name extra
      = (TypeDescriptor.field (TypeName.fieldType name.toList extra)).render := rfl

theorem SignaturePattern.accepts_parameters_iff {ts : List TypeDescriptor}
    (hts : ∀ t ∈ ts, ';' ∉ t.path) {parameters : List HostType}
    (hps : ∀ t ∈ parameters, t.Avoids ';' ∧ t.Avoids ')') (result : HostType) :
    accepts (.parameters (MethodDescriptor.render ⟨ts, none⟩))
        (some (methodDescriptor parameters result))
      ↔ parameters.map HostType.descriptor = ts := by
  have hobject := Element.not_mem_anyObject_path (.inl rfl : ';' = ';' ∨ ';' = ')')
  rw [accepts, Option.bind_some, parameterSection?_methodDescriptor fun t ht => (hps t ht).2,
    beq_iff_eq, Option.some.injEq]
  constructor
  · intro h
    exact (MethodDescriptor.chars_inj
      (HostType.descriptors_avoid hobject fun t ht => (hps t ht).1) hts
      (String.ofList_inj.mp h)).1
  · rintro rfl
    rfl

/-- A rule for a list of types applies to the methods of its owner and name whose
parameters have these types. -/
theorem Rule.covers_method_iff {rule : Rule} {ts : List TypeDescriptor}
    (hsignature : rule.signature = some (MethodDescriptor.render ⟨ts, none⟩))
    (hts : ∀ t ∈ ts, ';' ∉ t.path) {parameters : List HostType}
    (hps : ∀ t ∈ parameters, t.Avoids ';' ∧ t.Avoids ')') (owner : Option String)
    (member : String) (result : HostType) :
    rule.covers ⟨owner, member, some (methodDescriptor parameters result)⟩
      ↔ owner = some rule.owner ∧ member = rule.member
        ∧ parameters.map HostType.descriptor = ts := by
  rw [covers, pattern, hsignature, SignaturePattern.ofText?_parameters, Bool.and_eq_true,
    Bool.and_eq_true, beq_iff_eq, beq_iff_eq, SignaturePattern.accepts_parameters_iff hts hps,
    and_assoc]

/-! ## Entries that give an argument list -/

/-- An entry gives an argument list: as its arguments, when it has no signature, or in the
place of a signature, when the list is not itself a descriptor. -/
def Entry.GivesArguments (e : Entry) (list : String) : Prop :=
  ((e.signature = none ∨ e.signature = some "") ∧ e.arguments = some list) ∨
    (e.signature = some list ∧ isDescriptor list = false)

theorem Entry.ruleSignature_of_givesArguments {e : Entry} {list descriptor : String}
    (h : e.GivesArguments list) (hne : list ≠ "")
    (hlist : sourceArguments list = .ok descriptor) :
    e.ruleSignature = .ok (some descriptor) := by
  have hkept : nonEmpty (some list) = some list := by simp [nonEmpty, hne]
  rcases h with ⟨hsignature, harguments⟩ | ⟨hsignature, hdescriptor⟩
  · have hnone : nonEmpty e.signature = none := by
      rcases hsignature with h | h <;> rw [h] <;> rfl
    rw [ruleSignature, hnone, harguments, hkept]
    show (sourceArguments list).map some = _
    rw [hlist]
    rfl
  · rw [ruleSignature, hsignature, hkept]
    show Except.ok (some (normalize list)) = _
    rw [normalize, hdescriptor, hlist]
    rfl

theorem Entry.load_of_ruleSignature {e : Entry} (howner : e.fqcn ≠ "") (hmember : e.member ≠ "")
    {signature : Option String} (h : e.ruleSignature = .ok signature) (index : Nat) :
    e.load index = .ok
      (⟨e.fqcn, e.member, signature, e.migration, e.note⟩, e.events index signature) :=
  load_eq_ok_iff.mpr ⟨howner, hmember, signature, h, rfl, rfl⟩

/-- A written list is never empty. -/
theorem ArgumentList.Writes.ne_empty {names : List String} {list : String}
    (h : Writes names list) : list ≠ "" := by
  obtain ⟨before, inner, after, -, -, -, htext⟩ := h
  rintro rfl
  simp at htext

/-! ## Main result -/

/-- **An argument list selects exactly its overloads.** Take an entry of a rule text that
gives a list of type names. Its rule is loaded, and applies to a call or a construction
exactly if owner and member are those of the entry, and the parameters are as many as the
names and have the same descriptors, one by one. -/
theorem covers_iff_of_givesArguments {text list : String} {entries : List Entry} {i : Nat}
    {e : Entry} {names : List String} (hentries : RuleSet.entries? text = some entries)
    (hi : entries[i]? = some e) (howner : e.fqcn ≠ "") (hmember : e.member ≠ "")
    (hgives : e.GivesArguments list) (hwrites : ArgumentList.Writes names list)
    (hnames : ∀ name ∈ names, ArgumentList.IsListable name.toList ∧ ';' ∉ name.toList) :
    ∃ rule : Rule,
      (∀ rules, (RuleSet.parse text).value = .ok rules → rules[i]? = some rule) ∧
      (entries = [e] → (RuleSet.parse text).value = .ok [rule]) ∧
      ∀ symbol : Symbol, (∀ t ∈ symbol.parameters, t.Avoids ';' ∧ t.Avoids ')') →
        ((Shape.call (some symbol)).reference?.any rule.covers ↔
          symbol.ownerName? = some e.fqcn ∧ symbol.name = e.member ∧
            List.Forall₂ (fun t name => t.descriptor.render = nameDescriptor name 0)
              symbol.parameters names) ∧
        ((Shape.construction (some symbol)).reference?.any rule.covers ↔
          symbol.ownerName? = some e.fqcn ∧ constructorMember = e.member ∧
            List.Forall₂ (fun t name => t.descriptor.render = nameDescriptor name 0)
              symbol.parameters names) := by
  let types := names.map fun name => TypeDescriptor.field (TypeName.fieldType name.toList 0)
  let signature := MethodDescriptor.render ⟨types, none⟩
  have hlist : sourceArguments list = .ok signature := by
    rw [sourceArguments, ArgumentList.parse_of_writes hwrites fun name h => (hnames name h).1]
    rfl
  have hload := Entry.load_of_ruleSignature howner hmember
    (Entry.ruleSignature_of_givesArguments hgives hwrites.ne_empty hlist)
  refine ⟨⟨e.fqcn, e.member, some signature, e.migration, e.note⟩, ?_, ?_, ?_⟩
  · -- wherever the entry stands among others, its rule stands there too
    intro rules hrules
    rw [RuleSet.value_parse hentries] at hrules
    obtain ⟨rule, events, hrule, hget⟩ := Entry.getElem?_of_loadFrom hrules hi
    rw [hload] at hrule
    rw [hget, ← (Prod.mk.inj (Except.ok.inj hrule)).1]
  · rintro rfl
    rw [RuleSet.value_parse hentries, Entry.value_loadFrom_cons_eq_ok_iff]
    exact ⟨_, _, [], hload 0, rfl, rfl⟩
  · intro symbol hsymbol
    have hobject := Element.not_mem_anyObject_path (.inl rfl : ';' = ';' ∨ ';' = ')')
    have htypes : ∀ name ∈ names,
        ';' ∉ (TypeDescriptor.field (TypeName.fieldType name.toList 0)).path :=
      fun name h => TypeName.fieldType_avoids hobject (hnames name h).2 0
    -- the texts agree one by one if the lists of descriptors do
    simp only [nameDescriptor_eq_render]
    rw [TypeDescriptor.forall₂_render_iff
      (fun t h => HostType.descriptor_avoids hobject (hsymbol t h).1) htypes]
    exact ⟨Rule.covers_method_iff rfl (List.forall_mem_map.mpr htypes) hsymbol _ _ _,
      Rule.covers_method_iff rfl (List.forall_mem_map.mpr htypes) hsymbol _ _ _⟩

/-- A rule for the calls with a map, whose type arguments hold a comma, and a number. -/
def mapRuleText : String :=
  "[\x7b\"fqcn\":\"a.B\",\"member\":\"m\",\"arguments\":\"( Map<K, V>[],int )\"\x7d]"

/-- The comma inside the type arguments separates no parameters. -/
theorem covers_iff_of_mapRuleText :
    ∃ rule : Rule, (RuleSet.parse mapRuleText).value = .ok [rule] ∧
      ∀ symbol : Symbol, (∀ t ∈ symbol.parameters, t.Avoids ';' ∧ t.Avoids ')') →
        ((Shape.call (some symbol)).reference?.any rule.covers ↔
          symbol.ownerName? = some "a.B" ∧ symbol.name = "m" ∧
            List.Forall₂ (fun t name => t.descriptor.render = nameDescriptor name 0)
              symbol.parameters ["Map<K, V>[]", "int"]) := by
  let e : Entry := ⟨"a.B", "m", none, some "( Map<K, V>[],int )", none, none⟩
  have hentries : RuleSet.entries? mapRuleText = some [e] := by
    decide +kernel
  have hwrites : ArgumentList.Writes ["Map<K, V>[]", "int"] "( Map<K, V>[],int )" :=
    ⟨[], " Map<K, V>[],int ".toList, [], by simp, by simp,
      .cons ⟨[' '], [], List.forall_mem_singleton.mpr rfl, by simp, rfl⟩
        (.one ⟨[], [' '], by simp, List.forall_mem_singleton.mpr rfl, rfl⟩), rfl⟩
  obtain ⟨rule, -, hparse, hcovers⟩ := covers_iff_of_givesArguments hentries
    (rfl : [e][0]? = some e) (by decide) (by decide) (.inl ⟨.inl rfl, rfl⟩) hwrites (by decide)
  exact ⟨rule, hparse rfl, fun symbol hsymbol => (hcovers symbol hsymbol).1⟩

end DeprecatedApi
