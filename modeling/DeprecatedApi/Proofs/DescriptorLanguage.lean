import DeprecatedApi.Proofs.EmittedDescriptors
import Mathlib.Computability.Language

/-!
# The language of descriptors

The texts that are recognized as descriptors make up a regular language: `(`, field types, `)`,
and then nothing, `V` or one field type. Though nothing separates the parts of a descriptor, each
text of the language has them in one way only.

* `elementPattern`, `fieldPattern`, `descriptorPattern`: the language, by its regular expression.
* `mem_fieldPattern_iff`, `mem_descriptorPattern_iff`: its texts are those of well-formed
  descriptors.
* `isDescriptor_accepts_exactly_the_language`: recognition, and the parts of what is recognized.
-/

namespace DeprecatedApi

open scoped Computability

/-! ## Patterns -/

/-- The texts of one character with a property. -/
def oneOf (p : Char → Prop) : Language Char :=
  {cs | ∃ c, p c ∧ cs = [c]}

/-- The letters of the primitive types. -/
def codeLetters : List Char :=
  ['Z', 'B', 'C', 'S', 'I', 'J', 'F', 'D']

/-- The characters that may stand in no class path. -/
def pathEnders : List Char :=
  [';', '(', ')', '[']

/-- One code letter, or `L`, one or more characters of a class path, and `;`. -/
def elementPattern : Language Char :=
  oneOf (· ∈ codeLetters)
    + oneOf (· = 'L') * (oneOf (· ∉ pathEnders) * (oneOf (· ∉ pathEnders))∗) * oneOf (· = ';')

/-- Any number of `[`, and an element. -/
def fieldPattern : Language Char :=
  (oneOf (· = '['))∗ * elementPattern

/-- Any number of field types in parentheses, and then `V`, one field type or nothing. -/
def descriptorPattern : Language Char :=
  oneOf (· = '(') * fieldPattern∗ * oneOf (· = ')') * (oneOf (· = 'V') + fieldPattern + 1)

/-! ## Membership -/

theorem mem_oneOf_iff {p : Char → Prop} {cs : List Char} :
    cs ∈ oneOf p ↔ ∃ c, p c ∧ cs = [c] :=
  Iff.rfl

theorem mem_oneOf_eq_iff {d : Char} {cs : List Char} : cs ∈ oneOf (· = d) ↔ cs = [d] := by
  rw [mem_oneOf_iff]
  simp

/-- Repeated texts that stand for something are the text of a list of such things. -/
theorem mem_kstar_iff_exists_flatMap {α : Type} {language : Language Char} {P : α → Prop}
    {text : α → List Char} (h : ∀ cs, cs ∈ language ↔ ∃ a, P a ∧ cs = text a) {cs : List Char} :
    cs ∈ language∗ ↔ ∃ as : List α, (∀ a ∈ as, P a) ∧ cs = as.flatMap text := by
  rw [Language.mem_kstar]
  constructor
  · rintro ⟨pieces, rfl, hpieces⟩
    induction pieces with
    | nil => exact ⟨[], List.forall_mem_nil _, rfl⟩
    | cons piece pieces ih =>
      rw [List.forall_mem_cons] at hpieces
      obtain ⟨a, ha, rfl⟩ := (h piece).mp hpieces.1
      obtain ⟨as, has, htext⟩ := ih hpieces.2
      refine ⟨a :: as, List.forall_mem_cons.mpr ⟨ha, has⟩, ?_⟩
      rw [List.flatten_cons, htext, List.flatMap_cons]
  · rintro ⟨as, has, rfl⟩
    refine ⟨as.map text, rfl, ?_⟩
    intro piece hpiece
    obtain ⟨a, ha, rfl⟩ := List.mem_map.mp hpiece
    exact (h _).mpr ⟨a, has a ha, rfl⟩

theorem mem_kstar_oneOf_iff {p : Char → Prop} {cs : List Char} :
    cs ∈ (oneOf p)∗ ↔ ∀ c ∈ cs, p c := by
  rw [mem_kstar_iff_exists_flatMap fun _ => mem_oneOf_iff]
  simp

theorem mem_codeLetters_iff {c : Char} : c ∈ codeLetters ↔ ∃ p : Primitive, p.code = c := by
  have hcodes : codeLetters = Primitive.all.map Primitive.code := rfl
  rw [hcodes, List.mem_map]
  exact ⟨fun ⟨p, _, hp⟩ => ⟨p, hp⟩, fun ⟨p, hp⟩ => ⟨p, p.mem_all, hp⟩⟩

theorem not_mem_pathEnders_iff {c : Char} : c ∉ pathEnders ↔ isPathChar c := by
  rw [isPathChar_iff]
  simp [pathEnders]

/-- The texts of elements are those of the pattern. -/
theorem mem_elementPattern_iff {cs : List Char} :
    cs ∈ elementPattern ↔ ∃ e : Element, e.IsWellFormed ∧ cs = e.chars := by
  rw [elementPattern, Language.mem_add]
  constructor
  · rintro (⟨c, hc, rfl⟩ | h)
    · obtain ⟨p, rfl⟩ := mem_codeLetters_iff.mp hc
      exact ⟨.primitive p, .primitive p, rfl⟩
    · obtain ⟨front, hfront, last, hlast, rfl⟩ := Language.mem_mul.mp h
      obtain ⟨first, hfirst, path, hpath, rfl⟩ := Language.mem_mul.mp hfront
      obtain ⟨head, ⟨c, hc, rfl⟩, tail, htail, rfl⟩ := Language.mem_mul.mp hpath
      rw [mem_oneOf_eq_iff.mp hfirst, mem_oneOf_eq_iff.mp hlast]
      rw [mem_kstar_oneOf_iff] at htail
      refine ⟨.object (String.ofList (c :: tail)), .object ?_ ?_, ?_⟩
      · simp
      · simpa [not_mem_pathEnders_iff] using And.intro hc htail
      · simp [Element.chars]
  · rintro ⟨e, he, rfl⟩
    cases he with
    | primitive p => exact .inl ⟨p.code, mem_codeLetters_iff.mpr ⟨p, rfl⟩, rfl⟩
    | @object path hne hpath =>
      obtain ⟨c, tail, hcs⟩ := List.exists_cons_of_ne_nil hne
      rw [hcs, List.forall_mem_cons] at hpath
      have htail : tail ∈ (oneOf (· ∉ pathEnders))∗ :=
        mem_kstar_oneOf_iff.mpr fun d hd => not_mem_pathEnders_iff.mpr (hpath.2 d hd)
      refine .inr ?_
      rw [Element.chars, hcs, show 'L' :: (c :: tail) ++ [';'] = ['L'] ++ ([c] ++ tail) ++ [';'] by
        simp]
      refine Language.append_mem_mul (Language.append_mem_mul (mem_oneOf_eq_iff.mpr rfl) ?_)
        (mem_oneOf_eq_iff.mpr rfl)
      exact Language.append_mem_mul ⟨c, not_mem_pathEnders_iff.mpr hpath.1, rfl⟩ htail

/-- The texts of field types are those of the pattern. -/
theorem mem_fieldPattern_iff {cs : List Char} :
    cs ∈ fieldPattern ↔ ∃ t : FieldType, t.element.IsWellFormed ∧ cs = t.chars := by
  rw [fieldPattern, Language.mem_mul]
  constructor
  · rintro ⟨markers, hmarkers, text, htext, rfl⟩
    rw [mem_kstar_oneOf_iff] at hmarkers
    obtain ⟨e, he, rfl⟩ := mem_elementPattern_iff.mp htext
    refine ⟨⟨markers.length, e⟩, he, ?_⟩
    rw [FieldType.chars, ← List.eq_replicate_of_mem hmarkers]
  · rintro ⟨t, ht, rfl⟩
    refine ⟨_, ?_, _, mem_elementPattern_iff.mpr ⟨t.element, ht, rfl⟩, rfl⟩
    exact mem_kstar_oneOf_iff.mpr fun c hc => List.eq_of_mem_replicate hc

/-- What may stand after the parameters is the text of a result, or of none. -/
theorem mem_resultPattern_iff {cs : List Char} :
    cs ∈ oneOf (· = 'V') + fieldPattern + 1 ↔
      ∃ result : Option TypeDescriptor, (∀ t ∈ result, t.IsWellFormed) ∧
        cs = (result.map TypeDescriptor.chars).getD [] := by
  rw [Language.mem_add, Language.mem_add, mem_oneOf_eq_iff, mem_fieldPattern_iff, Language.mem_one]
  constructor
  · rintro ((rfl | ⟨t, ht, rfl⟩) | rfl)
    · exact ⟨some .void, by simpa using .void, rfl⟩
    · exact ⟨some (.field t), by simpa using .field ht, rfl⟩
    · exact ⟨none, by simp, rfl⟩
  · rintro ⟨result, hresult, rfl⟩
    cases result with
    | none => exact .inr rfl
    | some t =>
      cases hresult t rfl with
      | void => exact .inl (.inl rfl)
      | field helement => exact .inl (.inr ⟨_, helement, rfl⟩)

/-- **The texts of well-formed descriptors are those of the pattern.** -/
theorem mem_descriptorPattern_iff {cs : List Char} :
    cs ∈ descriptorPattern ↔ ∃ m : MethodDescriptor, m.IsWellFormed ∧ cs = m.chars := by
  rw [descriptorPattern, Language.mem_mul]
  constructor
  · rintro ⟨front, hfront, behind, hbehind, rfl⟩
    obtain ⟨opened, hopened, close, hclose, rfl⟩ := Language.mem_mul.mp hfront
    obtain ⟨first, hfirst, inner, hinner, rfl⟩ := Language.mem_mul.mp hopened
    obtain ⟨fields, hfields, rfl⟩ :=
      (mem_kstar_iff_exists_flatMap fun _ => mem_fieldPattern_iff).mp hinner
    obtain ⟨result, hresult, rfl⟩ := mem_resultPattern_iff.mp hbehind
    rw [mem_oneOf_eq_iff.mp hfirst, mem_oneOf_eq_iff.mp hclose]
    refine ⟨⟨fields.map .field, result⟩, ⟨?_, hresult⟩, ?_⟩
    · intro t ht
      obtain ⟨type, htype, rfl⟩ := List.mem_map.mp ht
      exact ⟨TypeDescriptor.noConfusion, .field (hfields type htype)⟩
    · rw [MethodDescriptor.chars_eq_cons, MethodDescriptor.flatMap_map_field]
      simp [MethodDescriptor.resultChars]
  · rintro ⟨⟨parameters, result⟩, hwell, rfl⟩
    obtain ⟨fields, rfl, hfields⟩ := MethodDescriptor.exists_map_field hwell.parameters
    refine ⟨['('] ++ fields.flatMap FieldType.chars ++ [')'], ?_, _,
      mem_resultPattern_iff.mpr ⟨result, hwell.result, rfl⟩, ?_⟩
    · refine Language.append_mem_mul (Language.append_mem_mul (mem_oneOf_eq_iff.mpr rfl) ?_)
        (mem_oneOf_eq_iff.mpr rfl)
      exact (mem_kstar_iff_exists_flatMap fun _ => mem_fieldPattern_iff).mpr ⟨fields, hfields, rfl⟩
    · rw [MethodDescriptor.chars_eq_cons, MethodDescriptor.flatMap_map_field]
      simp [MethodDescriptor.resultChars]

/-! ## Main result -/

/-- A text is recognized exactly if it is that of a well-formed descriptor. -/
theorem isDescriptor_iff_exists {text : String} :
    isDescriptor text ↔ ∃ m : MethodDescriptor, m.IsWellFormed ∧ text.toList = m.chars := by
  rw [isDescriptor, Option.isSome_iff_exists]
  simp only [MethodDescriptor.parse?, MethodDescriptor.parseChars?_eq_some_iff,
    and_comm (a := text.toList = _)]

/-- **The descriptors are recognized, and nothing else, and none in two ways.** A text is
recognized exactly if it is in the language of the pattern, and exactly if it is that of one and
only one well-formed descriptor: parameters that are field types, and a result that is absent, no
value or a field type. Its parameter section is the part with the parameters, which is recognized
too, and the text names no result exactly if the descriptor has none. -/
theorem isDescriptor_accepts_exactly_the_language (text : String) :
    (isDescriptor text ↔ text.toList ∈ descriptorPattern) ∧
    (isDescriptor text ↔ ∃! m : MethodDescriptor, m.IsWellFormed ∧ text.toList = m.chars) ∧
    ∀ m : MethodDescriptor, m.IsWellFormed → text.toList = m.chars →
      text.toList = m.parameterChars ++ m.resultChars ∧
      parameterSection? text = some (String.ofList m.parameterChars) ∧
      isDescriptor (String.ofList m.parameterChars) ∧
      (isParameterOnly text ↔ m.result = none) := by
  refine ⟨isDescriptor_iff_exists.trans mem_descriptorPattern_iff.symm, ?_, ?_⟩
  · rw [isDescriptor_iff_exists]
    refine ⟨?_, ExistsUnique.exists⟩
    rintro ⟨m, hwell, htext⟩
    refine ⟨m, ⟨hwell, htext⟩, ?_⟩
    -- both descriptors are what is read off the text
    rintro other ⟨hwell', htext'⟩
    have hread := MethodDescriptor.parseChars?_eq_some_iff.mpr ⟨htext, hwell⟩
    have hread' := MethodDescriptor.parseChars?_eq_some_iff.mpr ⟨htext', hwell'⟩
    exact Option.some.inj (hread'.symm.trans hread)
  · intro m hwell htext
    obtain rfl : text = m.render := String.toList_inj.mp (by
      rw [htext, MethodDescriptor.render, String.toList_ofList])
    have hpart : m.parametersOnly.render = String.ofList m.parameterChars :=
      congrArg String.ofList (List.append_nil _)
    refine ⟨htext, ?_, ?_, ?_⟩
    · rw [MethodDescriptor.parameterSection?_render hwell.not_mem_path, hpart]
    · rw [← hpart]
      exact hwell.parametersOnly.isDescriptor_render
    · rw [MethodDescriptor.isParameterOnly_render, Option.isNone_iff_eq_none]

/-- A class path with a line break and with code letters in it, and an array of classes with the
name `V`. -/
def lineBreakDescriptor : MethodDescriptor :=
  ⟨[.field ⟨0, .object "I\nL"⟩, .field ⟨2, .primitive .int⟩], some (.field ⟨1, .object "V"⟩)⟩

theorem lineBreakDescriptor_isWellFormed : lineBreakDescriptor.IsWellFormed where
  parameters := by
    have hpath : ∀ c ∈ "I\nL".toList, isPathChar c := List.all_eq_true.mp (by decide)
    simp only [lineBreakDescriptor, List.forall_mem_cons, List.not_mem_nil, IsEmpty.forall_iff,
      implies_true, and_true]
    exact ⟨⟨TypeDescriptor.noConfusion, .field (.object (by decide) hpath)⟩,
      TypeDescriptor.noConfusion, .field (.primitive .int)⟩
  result := by
    rintro _ ⟨⟩
    exact .field (.object (by decide) (List.all_eq_true.mp (by decide)))

/-- The parts of a descriptor with a line break. -/
theorem parts_of_lineBreakDescriptor :
    isDescriptor "(LI\nL;[[I)[LV;" ∧
    parameterSection? "(LI\nL;[[I)[LV;" = some "(LI\nL;[[I)" ∧ isDescriptor "(LI\nL;[[I)" ∧
    ¬ isParameterOnly "(LI\nL;[[I)[LV;" ∧
    ∀ m : MethodDescriptor, m.IsWellFormed → "(LI\nL;[[I)[LV;".toList = m.chars →
      m = lineBreakDescriptor := by
  have htext : "(LI\nL;[[I)[LV;".toList = lineBreakDescriptor.chars := by decide
  obtain ⟨-, hunique, hparts⟩ := isDescriptor_accepts_exactly_the_language "(LI\nL;[[I)[LV;"
  obtain ⟨-, hsection, hdescriptor, honly⟩ :=
    hparts lineBreakDescriptor lineBreakDescriptor_isWellFormed htext
  have hrecognized : isDescriptor "(LI\nL;[[I)[LV;" := by decide
  refine ⟨hrecognized, hsection, hdescriptor, ?_, ?_⟩
  · rw [honly]
    exact Option.some_ne_none _
  · intro m hwell hm
    exact (hunique.mp hrecognized).unique ⟨hwell, hm⟩ ⟨lineBreakDescriptor_isWellFormed, htext⟩

end DeprecatedApi
