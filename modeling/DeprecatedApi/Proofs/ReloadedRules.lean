import DeprecatedApi.Proofs.EmittedDescriptors
import DeprecatedApi.Proofs.RestrictedRules

/-!
# Loading rules again

Loaded rules can be written as entries, and these can be loaded again. What an argument list was
at first is a descriptor then, in the field where an argument list could stand as well. So the
second loading leaves a rule alone only if its signature is not taken for an argument list once
more: it is a descriptor, or it is no argument list. These are the only rules that it leaves alone,
for no text but a descriptor is the descriptor of itself.

* `isDescriptor_of_sourceArguments_self`: an argument list that denotes itself is a descriptor.
* `Entry.normalize_eq_self_iff`: which signatures loading leaves alone.
* `Rule.toEntry`, `Rule.normalized`: a rule as an entry, and what loading makes of this entry.
* `RuleSet.parse_of_toJson`: what the second loading gives, and what it tells.
* `loaded_rules_are_fixed`: the rules that are loaded again as they are.
-/

namespace DeprecatedApi

/-! ## Argument lists that denote themselves -/

namespace ArgumentList

/-- Without a `<`, the depth stays zero. -/
theorem depthFrom_zero_of_not_mem {cs : List Char} (h : '<' ∉ cs) : depthFrom 0 cs = 0 := by
  induction cs with
  | nil => rfl
  | cons c cs ih =>
    rw [List.mem_cons, not_or] at h
    have hdepth : depthAfter 0 c = 0 := by
      rw [depthAfter, if_neg (Ne.symm h.1)]
      split <;> rfl
    rw [depthFrom_cons, hdepth, ih h.2]

/-- A piece begins at depth zero, and no comma in it is at that depth. -/
theorem IsPiece.isUncut {cs piece : List Char} (h : IsPiece cs piece) : IsUncut 0 piece := by
  obtain ⟨before, after, -, hbegins, -, huncut⟩ := h
  have hzero : depthFrom 0 before = 0 := by
    rcases hbegins with rfl | ⟨earlier, rfl, hearlier⟩
    · rfl
    · rw [depthFrom_append, hearlier]
      rfl
  rwa [hzero] at huncut

/-- The element name of a piece has no commas: it ends before the first `<`. -/
theorem comma_not_mem_elementName {piece : List Char} (h : IsUncut 0 piece) :
    ',' ∉ TypeName.elementName piece := by
  intro hmem
  obtain ⟨before, after, hname⟩ := List.append_of_mem hmem
  obtain ⟨rest, hrest⟩ := TypeName.elementName_isPrefix piece
  have hsplit : piece = (piece.takeWhile Text.isBlank ++ before) ++ ',' :: (after ++ rest) := by
    rw [List.append_assoc, ← List.cons_append, ← List.append_assoc before, ← hname, hrest]
    exact List.takeWhile_append_dropWhile.symm
  refine h _ _ hsplit (depthFrom_zero_of_not_mem ?_)
  rw [List.mem_append, not_or]
  constructor
  · intro hblank
    exact absurd (List.mem_takeWhile_imp hblank) (by decide)
  · intro hbefore
    refine TypeName.not_mem_elementName piece ?_
    rw [hname]
    exact List.mem_append_left _ hbefore

/-- The descriptor of an argument list has no commas. -/
theorem comma_not_mem_flatMap_chars (inner : List Char) :
    ',' ∉ (parts inner).flatMap fun part => (TypeName.fieldType part 0).chars := by
  intro hmem
  obtain ⟨part, hpart, hchars⟩ := List.mem_flatMap.mp hmem
  have hname := comma_not_mem_elementName (mem_parts_iff.mp hpart).2.isUncut
  have hpath := TypeName.fieldType_avoids_of_elementName (by decide) hname 0
  exact TypeDescriptor.not_mem_chars (by decide) hpath hchars

end ArgumentList

/-- A text of the form of an object descriptor, with dimensions before it, is a bare name. -/
theorem TypeName.isBare_of_object {dims : Nat} {path name : List Char} (hpath : '<' ∉ path)
    (h : List.replicate dims '[' ++ ('L' :: path ++ [';']) = name) : IsBare name := by
  have hlast : name.getLast? = some ';' := by
    rw [← h, ← List.append_assoc, List.getLast?_concat]
  have hhead : ∀ c, name.head? = some c → c = '[' ∨ c = 'L' := by
    intro c hc
    rw [← h] at hc
    cases dims with
    | zero => exact .inr (Option.some.inj hc).symm
    | succ dims => exact .inl (Option.some.inj hc).symm
  have hsuffix : ∀ mark : List Char, mark <:+ name → mark ≠ [] → mark.getLast? = some ';' := by
    rintro mark ⟨before, hbefore⟩ hne
    rw [← hbefore, List.getLast?_append_of_ne_nil _ hne] at hlast
    exact hlast
  refine ⟨Text.HasInkEnds.trimChars_eq ?_, ?_, ?_, ?_, ?_⟩
  · rintro c (hc | hc)
    · rcases hhead c hc with rfl | rfl <;> decide
    · rw [hlast] at hc
      cases hc
      decide
  · rintro rfl
    cases hlast
  · rw [← h]
    simpa [List.mem_replicate] using hpath
  · intro hmark
    cases hsuffix _ hmark (by simp)
  · intro hmark
    cases hsuffix _ hmark (by simp)

/-- A name that is its own descriptor names a primitive type or the class of all objects: any
other name is shorter than its descriptor. -/
theorem TypeName.isWellFormed_of_chars_eq_self {name : List Char}
    (h : (fieldType name 0).chars = name) : (fieldType name 0).element.IsWellFormed := by
  rw [element_fieldType]
  by_cases hnil : elementName name = []
  · rw [hnil]
    exact isWellFormed_anyObject
  · rw [element_of_ne_nil hnil]
    cases hprimitive : Primitive.ofName? (String.ofList (elementName name)) with
    | some p => exact .primitive p
    | none =>
      exfalso
      have helement : element (elementName name) = .ofDotted (elementName name) := by
        rw [element_of_ne_nil hnil, hprimitive]
      have hchars : List.replicate (0 + markerCount name) '['
          ++ ('L' :: slashed (elementName name) ++ [';']) = name := by
        rw [FieldType.chars, fieldType, helement, Element.ofDotted, Element.chars,
          String.toList_ofList] at h
        exact h
      have hangle : '<' ∉ slashed (elementName name) := by
        intro hmem
        rcases mem_slashed hmem with heq | hmem
        · exact absurd heq (by decide)
        · exact not_mem_elementName name hmem
      -- the name is left alone, so that it is its own element name
      have hbare : IsBare name := isBare_of_object hangle hchars
      have hsame : element (elementName name) = element name := by
        rw [← element_fieldType name 0, fieldType_of_bare hbare]
      rw [helement, element_of_ne_nil hbare.nonempty] at hsame
      split at hsame
      · cases hsame
      · have hpath : slashed (elementName name) = slashed name :=
          String.ofList_inj.mp (Element.object.inj hsame)
        have hlength := congrArg List.length hpath
        have hlonger := congrArg List.length hchars
        simp only [slashed, List.length_map] at hlength
        simp only [slashed, List.length_append, List.length_cons, List.length_map,
          List.length_replicate] at hlonger
        omega

/-- **No text but a descriptor is the descriptor of itself.** -/
theorem isDescriptor_of_sourceArguments_self {text : String}
    (h : sourceArguments text = .ok text) : isDescriptor text = true := by
  obtain ⟨m, hparse, hrender⟩ := sourceArguments_eq_ok_iff.mp h
  obtain ⟨inner, htrim, -, hm⟩ := ArgumentList.parse_eq_ok_iff.mp hparse
  have htext : text.toList = '(' :: m.parameters.flatMap TypeDescriptor.chars ++ [')'] := by
    rw [← hrender, MethodDescriptor.render, String.toList_ofList, MethodDescriptor.chars_eq_cons,
      MethodDescriptor.resultChars, hm]
    rfl
  have hinner : inner = (ArgumentList.parts inner).flatMap
      fun part => (TypeName.fieldType part 0).chars := by
    rw [htext, Text.trimChars_eq_self (by decide) (by decide), List.cons_append, List.cons_append,
      List.cons_inj_right, List.append_left_inj, hm, List.flatMap_map] at htrim
    exact htrim.symm
  have hcomma : ',' ∉ inner := by
    rw [hinner]
    exact ArgumentList.comma_not_mem_flatMap_chars inner
  have huncut : ArgumentList.IsUncut 0 inner := by
    intro before after hcut
    exact absurd (hcut ▸ by simp) hcomma
  have hwell : m.IsWellFormed := by
    rw [hm]
    refine ⟨?_, by simp⟩
    intro t ht
    obtain ⟨part, hpart, rfl⟩ := List.mem_map.mp ht
    -- there is one part at most, and it is the whole text
    have hwhole : part = inner :=
      (ArgumentList.isPiece_iff_of_isUncut huncut).mp (ArgumentList.mem_parts_iff.mp hpart).2
    have hparts : ArgumentList.parts inner = [inner] := by
      rw [ArgumentList.parts]
      split
      · rename_i hblank
        rw [ArgumentList.parts, if_pos hblank] at hpart
        cases hpart
      · exact huncut.splitFrom_eq
    rw [hparts, List.flatMap_singleton] at hinner
    rw [hwhole]
    exact ⟨TypeDescriptor.noConfusion,
      .field (TypeName.isWellFormed_of_chars_eq_self hinner.symm)⟩
  rw [← hrender]
  exact hwell.isDescriptor_render

/-! ## Signatures that loading leaves alone -/

namespace Entry

/-- Loading leaves descriptors alone, and what is no argument list. -/
theorem normalize_eq_self_iff {signature : String} :
    normalize signature = signature ↔
      isDescriptor signature = true ∨ ∃ fault, sourceArguments signature = .error fault := by
  rw [normalize]
  by_cases hform : isDescriptor signature = true
  · rw [if_pos hform]
    exact ⟨fun _ => .inl hform, fun _ => rfl⟩
  · rw [if_neg hform]
    cases hread : sourceArguments signature with
    | error fault => exact ⟨fun _ => .inr ⟨fault, rfl⟩, fun _ => rfl⟩
    | ok descriptor =>
      constructor
      · intro hsame
        have hsame : descriptor = signature := hsame
        exact .inl (isDescriptor_of_sourceArguments_self (hsame ▸ hread))
      · rintro (hform' | ⟨fault, hrefused⟩)
        · exact absurd hform' hform
        · cases hrefused

/-- A conversion is told of no signature that loading leaves alone. -/
theorem eq_converted_of_mem_conversionEvents {index : Nat} {signature : String} {event : Event}
    (h : event ∈ conversionEvents index signature) :
    normalize signature ≠ signature ∧
      event = .converted index signature (normalize signature) := by
  rw [conversionEvents] at h
  by_cases hform : isDescriptor signature = true
  · rw [if_pos hform] at h
    cases h
  · rw [if_neg hform] at h
    cases hread : sourceArguments signature with
    | error fault =>
      rw [hread] at h
      cases h
    | ok descriptor =>
      rw [hread] at h
      have hnormal : normalize signature = descriptor := by
        rw [normalize, if_neg hform, hread]
      refine ⟨?_, ?_⟩
      · rw [Ne, normalize_eq_self_iff, hread]
        rintro (hform' | ⟨fault, hrefused⟩)
        · exact hform hform'
        · cases hrefused
      · rw [hnormal]
        exact List.mem_singleton.mp h

/-- An entry has one rule at most. -/
theorem rightUnique_carries : Relator.RightUnique Carries := by
  intro e first second h h'
  obtain ⟨owner, member, signature, migration, note⟩ := first
  obtain ⟨owner', member', signature', migration', note'⟩ := second
  obtain ⟨rfl, rfl, rfl, rfl, hsignature⟩ := h
  obtain ⟨rfl, rfl, rfl, rfl, hsignature'⟩ := h'
  obtain rfl : signature = signature' := Except.ok.inj (hsignature.symm.trans hsignature')
  rfl

/-- What is told of a list of entries is told of one of them. -/
theorem exists_of_mem_toldFrom {entries : List Entry} {index : Nat} {event : Event}
    (h : event ∈ toldFrom index entries) : ∃ e ∈ entries, ∃ place, event ∈ e.told place := by
  induction entries generalizing index with
  | nil => cases h
  | cons e entries ih =>
    rw [toldFrom, List.mem_append] at h
    rcases h with h | h
    · exact ⟨e, List.mem_cons_self, index, h⟩
    · obtain ⟨other, hother, found⟩ := ih h
      exact ⟨other, List.mem_cons_of_mem _ hother, found⟩

end Entry

/-! ## Rules as entries -/

namespace Rule

/-- A rule as an entry, with its signature in the field of signatures. -/
def toEntry (rule : Rule) : Entry :=
  ⟨rule.owner, rule.member, rule.signature, none, rule.migration, rule.note⟩

/-- What loading makes of a rule that is written as an entry. -/
def normalized (rule : Rule) : Rule :=
  { rule with signature := rule.signature.map Entry.normalize }

/-- The signature of a rule, if it has one, is a descriptor or no argument list. -/
def IsSettled (rule : Rule) : Prop :=
  ∀ signature, rule.signature = some signature →
    isDescriptor signature = true ∨ ∃ fault, sourceArguments signature = .error fault

/-- A written rule is decoded as an entry, what is absent being `null`. -/
theorem ofJson?_toJson (rule : Rule) : Entry.ofJson? rule.toJson = some rule.toEntry := by
  have hrecord : rule.toJson.record? Entry.fieldNames = some
      [("fqcn", .string rule.owner), ("member", .string rule.member),
       ("signature", .ofOption .string rule.signature),
       ("migration", .ofOption .string rule.migration),
       ("note", .ofOption .string rule.note)] :=
    rfl
  have hoption : ∀ text : Option String, Json.orNull? Json.text? (.ofOption .string text)
      = some text := by
    intro text
    cases text with
    | none => rfl
    | some text => rfl
  simp [Entry.ofJson?, hrecord, Record.need?, Record.get?, List.lookup_cons, Json.text?, hoption,
    toEntry]

theorem isWritable_toJson (rule : Rule) : rule.toJson.IsWritable :=
  .ofFields ⟨.string _, .string _, .ofOption .string _, .ofOption .string _,
    .ofOption .string _⟩

theorem not_isBad_toEntry {rule : Rule} (howner : rule.owner ≠ "") (hmember : rule.member ≠ "") :
    ¬ rule.toEntry.IsBad := by
  rintro (hempty | hempty | ⟨-, list, fault, hlist, -⟩)
  · exact howner hempty
  · exact hmember hempty
  · cases hlist

theorem ruleSignature_toEntry {rule : Rule} (h : rule.signature ≠ some "") :
    rule.toEntry.ruleSignature = .ok (rule.signature.map Entry.normalize) := by
  cases hsignature : rule.signature with
  | none =>
    rw [Entry.ruleSignature, toEntry, hsignature]
    rfl
  | some signature =>
    have hkept : Entry.nonEmpty (some signature) = some signature :=
      Entry.nonEmpty_eq_some_iff.mpr ⟨rfl, fun hempty => h (hempty ▸ hsignature)⟩
    rw [Entry.ruleSignature, toEntry, hsignature, hkept]
    rfl

/-- **Step**: the entry of a rule is loaded as the rule with its signature normalized. -/
theorem carries_toEntry {rule : Rule} (h : rule.signature ≠ some "") :
    rule.toEntry.Carries rule.normalized :=
  ⟨rfl, rfl, rfl, rfl, ruleSignature_toEntry h⟩

theorem normalized_eq_self_iff {rule : Rule} : rule.normalized = rule ↔ rule.IsSettled := by
  obtain ⟨owner, member, signature, migration, note⟩ := rule
  simp only [normalized, IsSettled, mk.injEq, true_and, and_true]
  cases signature with
  | none => simp
  | some signature => simp [Entry.normalize_eq_self_iff]

/-- **Step**: what is told of the entry of a rule. -/
theorem mem_told_toEntry_cases {rule : Rule} {index : Nat} {event : Event}
    (h : event ∈ rule.toEntry.told index) :
    (¬ rule.IsSettled ∧ ∃ source target, event = .converted index source target) ∨
      ∃ signature, event = .deadSignature index signature := by
  rw [Entry.told] at h
  split at h
  · rename_i loaded _
    rw [Entry.events, List.mem_append, List.mem_append] at h
    rcases h with (hboth | hconverted) | hdead
    · -- there are no arguments
      rw [Entry.bothFormsEvents, show Entry.nonEmpty rule.toEntry.arguments = none from rfl,
        Option.isSome_none, Bool.and_false] at hboth
      cases hboth
    · cases hkept : Entry.nonEmpty rule.toEntry.signature with
      | none =>
        rw [hkept] at hconverted
        cases hconverted
      | some signature =>
        rw [hkept] at hconverted
        obtain ⟨hchanged, rfl⟩ := Entry.eq_converted_of_mem_conversionEvents hconverted
        refine .inl ⟨?_, _, _, rfl⟩
        intro hsettled
        have hsignature := (Entry.nonEmpty_eq_some_iff.mp hkept).1
        exact hchanged (Entry.normalize_eq_self_iff.mpr (hsettled _ hsignature))
    · cases loaded with
      | none => cases hdead
      | some signature =>
        rw [Entry.deadSignatureEvents] at hdead
        split at hdead
        · cases hdead
        · exact .inr ⟨signature, List.mem_singleton.mp hdead⟩
  · cases h

end Rule

/-! ## Loading again -/

namespace RuleSet

theorem entries?_of_toJson {rules : RuleSet} {text : String}
    (h : Json.parse? text = some (toJson rules)) :
    entries? text = some (rules.map Rule.toEntry) := by
  have hwrites : Json.WritesList (fun e j => Entry.ofJson? j = some e) (rules.map Rule.toEntry)
      (toJson rules) :=
    .array (List.forall₂_map_left_iff.mpr (List.forall₂_map_right_iff.mpr
      (List.forall₂_same.mpr fun rule _ => rule.ofJson?_toJson)))
  rw [entries?, h]
  exact Json.list?_of_writesList hwrites fun _ _ _ hread => hread

/-- Rules are written as a text that can be read. -/
theorem parse?_compact_toJson (rules : RuleSet) :
    Json.parse? (toJson rules).compact = some (toJson rules) :=
  Json.parse?_compact (.array (List.forall_mem_map.mpr fun rule _ => rule.isWritable_toJson))

/-- A loaded rule has an owner and a member, and no empty signature. -/
theorem ne_empty_of_parse {text : String} {rules : RuleSet} (h : (parse text).value = .ok rules)
    {rule : Rule} (hrule : rule ∈ rules) :
    rule.owner ≠ "" ∧ rule.member ≠ "" ∧ rule.signature ≠ some "" := by
  obtain ⟨index, hindex⟩ := List.mem_iff_getElem?.mp hrule
  obtain ⟨entries, e, -, -, hgood, hcarries⟩ := exists_entry_of_parse h hindex
  exact ⟨fun hempty => hgood (.inl (hcarries.owner ▸ hempty)),
    fun hempty => hgood (.inr (.inl (hcarries.member ▸ hempty))), hcarries.signature_ne_empty⟩

/-- **Run**: the rules of a text, written as entries, are loaded again with their signatures
normalized. -/
theorem parse_of_toJson {text : String} {rules : RuleSet} (h : (parse text).value = .ok rules)
    {again : String} (hagain : Json.parse? again = some (toJson rules)) :
    (parse again).value = .ok (rules.map Rule.normalized) ∧
      (parse again).events
        = Entry.toldFrom 0 (rules.map Rule.toEntry) ++ [.rulesLoaded rules.length] := by
  have hgood : ∀ e ∈ rules.map Rule.toEntry, ¬ e.IsBad := by
    intro e he
    obtain ⟨rule, hrule, rfl⟩ := List.mem_map.mp he
    obtain ⟨howner, hmember, -⟩ := ne_empty_of_parse h hrule
    exact Rule.not_isBad_toEntry howner hmember
  obtain ⟨reloaded, hcarries, hvalue, hevents⟩ :=
    parse_of_forall_not_isBad (entries?_of_toJson hagain) hgood
  have hexpected : List.Forall₂ Entry.Carries (rules.map Rule.toEntry)
      (rules.map Rule.normalized) :=
    List.forall₂_map_left_iff.mpr (List.forall₂_map_right_iff.mpr
      (List.forall₂_same.mpr fun rule hrule =>
        Rule.carries_toEntry (ne_empty_of_parse h hrule).2.2))
  have hsame : reloaded = rules.map Rule.normalized :=
    List.right_unique_forall₂' Entry.rightUnique_carries hcarries hexpected
  rw [hvalue, hevents, hsame, List.length_map]
  exact ⟨rfl, rfl⟩

/-- What can be told of rules that are loaded again: their number, that a signature is no
descriptor, or that one of a rule that is not settled was an argument list. -/
theorem mem_events_of_toJson {text : String} {rules : RuleSet}
    (h : (parse text).value = .ok rules) {again : String}
    (hagain : Json.parse? again = some (toJson rules)) {event : Event}
    (hevent : event ∈ (parse again).events) :
    event = .rulesLoaded rules.length ∨
      (∃ index signature, event = .deadSignature index signature) ∨
      ∃ rule ∈ rules, ¬ rule.IsSettled ∧ ∃ index source target,
        event = .converted index source target := by
  rw [(parse_of_toJson h hagain).2, List.mem_append, List.mem_singleton] at hevent
  rcases hevent with htold | hcount
  · obtain ⟨e, he, place, htold⟩ := Entry.exists_of_mem_toldFrom htold
    obtain ⟨rule, hrule, rfl⟩ := List.mem_map.mp he
    rcases Rule.mem_told_toEntry_cases htold with ⟨hopen, hconverted⟩ | hdead
    · exact .inr (.inr ⟨rule, hrule, hopen, place, hconverted⟩)
    · exact .inr (.inl ⟨place, hdead⟩)
  · exact .inl hcount

end RuleSet

/-! ## Main result -/

/-- **Loaded rules are a fixed point of loading.** Take the rules of a text and write them as
entries, with `null` for what is absent; they have such a text. Loading any such text again gives
the same rules exactly if each has no signature, or a descriptor, or what is no argument list.
Then no conversion is told of, and never that both forms are set. -/
theorem loaded_rules_are_fixed {text : String} {rules : RuleSet}
    (h : (RuleSet.parse text).value = .ok rules) :
    Json.parse? (RuleSet.toJson rules).compact = some (RuleSet.toJson rules) ∧
    ∀ again, Json.parse? again = some (RuleSet.toJson rules) →
      ((RuleSet.parse again).value = .ok rules ↔ ∀ rule ∈ rules, rule.IsSettled) ∧
      ((∀ rule ∈ rules, rule.IsSettled) → ∀ index source target,
        .converted index source target ∉ (RuleSet.parse again).events) ∧
      ∀ index owner member, .bothForms index owner member ∉ (RuleSet.parse again).events := by
  refine ⟨RuleSet.parse?_compact_toJson rules, ?_⟩
  intro again hagain
  have hvalue := (RuleSet.parse_of_toJson h hagain).1
  refine ⟨?_, ?_, ?_⟩
  · have hself : rules.map Rule.normalized = rules ↔ ∀ rule ∈ rules, rule.normalized = id rule := by
      rw [← List.map_inj_left, List.map_id]
    simp only [hvalue, Except.ok.injEq, hself, id, Rule.normalized_eq_self_iff]
  · intro hsettled index source target hmem
    rcases RuleSet.mem_events_of_toJson h hagain hmem with
      hcount | ⟨place, signature, hdead⟩ | ⟨rule, hrule, hopen, -⟩
    · cases hcount
    · cases hdead
    · exact hopen (hsettled rule hrule)
  · intro index owner member hmem
    rcases RuleSet.mem_events_of_toJson h hagain hmem with
      hcount | ⟨place, signature, hdead⟩ | ⟨rule, -, -, place, source, target, hconverted⟩
    · cases hcount
    · cases hdead
    · cases hconverted

/-- An entry with both forms, one whose signature is neither of them, and one with an empty
signature, no arguments and an empty note. -/
def bothFormsEntries : Json :=
  .array
    [.ofFields [("fqcn", .string "a.B"), ("member", .string "m"), ("signature", .string "(int)"),
      ("arguments", .string "(long)")],
     .ofFields [("fqcn", .string "a.B"), ("member", .string "n"),
      ("signature", .string "n(int)"), ("migration", .string "k")],
     .ofFields [("fqcn", .string "a.B"), ("member", .string "k"), ("signature", .string ""),
      ("note", .string "")]]

/-- An entry whose argument has a semicolon in its name. -/
def semicolonEntries : Json :=
  .array [.ofFields [("fqcn", .string "a.B"), ("member", .string "m"),
    ("arguments", .string "(a;b)")]]

/-- The rules of the first text are fixed, though both forms and a conversion were told of at
first. The rule of the second text is not: its descriptor is taken for an argument list. -/
theorem loaded_rules_of_bothFormsEntries :
    (∃ rules : RuleSet, (RuleSet.parse bothFormsEntries.compact).value = .ok rules ∧
      .bothForms 0 "a.B" "m" ∈ (RuleSet.parse bothFormsEntries.compact).events ∧
      .converted 0 "(int)" "(I)" ∈ (RuleSet.parse bothFormsEntries.compact).events ∧
      (RuleSet.parse (RuleSet.toJson rules).compact).value = .ok rules ∧
      ∀ index source target,
        .converted index source target ∉ (RuleSet.parse (RuleSet.toJson rules).compact).events) ∧
    ∃ rules : RuleSet, (RuleSet.parse semicolonEntries.compact).value = .ok rules ∧
      (RuleSet.parse (RuleSet.toJson rules).compact).value ≠ .ok rules := by
  let entries : List Entry := [⟨"a.B", "m", some "(int)", some "(long)", none, none⟩,
    ⟨"a.B", "n", some "n(int)", none, some "k", none⟩, ⟨"a.B", "k", some "", none, none, some ""⟩]
  let rules : RuleSet := [⟨"a.B", "m", some "(I)", none, none⟩,
    ⟨"a.B", "n", some "n(int)", some "k", none⟩, ⟨"a.B", "k", none, none, some ""⟩]
  have hwritable : bothFormsEntries.IsWritable := by
    refine .array ?_
    simp only [List.forall_mem_cons, List.not_mem_nil, IsEmpty.forall_iff, implies_true, and_true]
    exact ⟨.ofFields ⟨.string _, .string _, .string _, .string _⟩,
      .ofFields ⟨.string _, .string _, .string _, .string _⟩,
      .ofFields ⟨.string _, .string _, .string _, .string _⟩⟩
  have hentries : RuleSet.entries? bothFormsEntries.compact = some entries := by
    rw [RuleSet.entries?, Json.parse?_compact hwritable]
    decide
  have hparse : (RuleSet.parse bothFormsEntries.compact).value = .ok rules := by
    rw [RuleSet.value_parse hentries]
    decide
  have hevents : (RuleSet.parse bothFormsEntries.compact).events = [.bothForms 0 "a.B" "m",
      .converted 0 "(int)" "(I)", .deadSignature 1 "n(int)", .rulesLoaded 3] := by
    rw [RuleSet.parse_eq_load hentries]
    decide
  have hnormal : ∀ rule ∈ rules, rule.normalized = rule := by
    decide
  have hsettled : ∀ rule ∈ rules, rule.IsSettled := fun rule hrule =>
    Rule.normalized_eq_self_iff.mp (hnormal rule hrule)
  obtain ⟨hread, hagain⟩ := loaded_rules_are_fixed hparse
  obtain ⟨hfixed, hquiet, -⟩ := hagain _ hread
  refine ⟨⟨rules, hparse, by simp [hevents], by simp [hevents], hfixed.mpr hsettled,
    hquiet hsettled⟩, ?_⟩
  let odd : Rule := ⟨"a.B", "m", some "(La;b;)", none, none⟩
  have hwritable' : semicolonEntries.IsWritable :=
    .array (List.forall_mem_singleton.mpr (.ofFields ⟨.string _, .string _, .string _⟩))
  have hentries' : RuleSet.entries? semicolonEntries.compact
      = some [⟨"a.B", "m", none, some "(a;b)", none, none⟩] := by
    rw [RuleSet.entries?, Json.parse?_compact hwritable']
    decide
  have hparse' : (RuleSet.parse semicolonEntries.compact).value = .ok [odd] := by
    rw [RuleSet.value_parse hentries']
    decide
  have hchanged : odd.normalized ≠ odd := by
    decide
  obtain ⟨hread', hagain'⟩ := loaded_rules_are_fixed hparse'
  refine ⟨[odd], hparse', ?_⟩
  intro hfixed'
  have hsettled' := (hagain' _ hread').1.mp hfixed' odd List.mem_cons_self
  exact hchanged (Rule.normalized_eq_self_iff.mpr hsettled')

end DeprecatedApi
