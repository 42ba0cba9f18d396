import DeprecatedApi.Proofs.DescriptorGrammar

/-!
# Which descriptors reported types can have

The descriptor of a reported type is always written in one way: dots as slashes, no type
arguments, no blank characters at the ends, and a letter in the place of the name of a
primitive type. So not every well-formed descriptor is the descriptor of a type.

* `HostType.IsLegal`: types whose names do not disturb a descriptor.
* `Element.IsNameable`: elements that some written name denotes.
* `HostType.IsLegal.descriptor`, `HostType.isNameable_descriptor`: the descriptor of a legal type
  is well-formed and nameable.
* `HostType.ofDescriptor`: a legal type with a given descriptor of this kind.
-/

namespace DeprecatedApi

/-! ## Ends of a text -/

namespace Text

/-- A text neither begins nor ends with a blank character. -/
def HasInkEnds (cs : List Char) : Prop :=
  ∀ c, cs.head? = some c ∨ cs.getLast? = some c → ¬ isBlank c

theorem trimEnd_of_getLast? {cs : List Char} (h : ∀ c, cs.getLast? = some c → ¬ isBlank c) :
    trimEnd cs = cs := by
  rw [trimEnd_eq_rdropWhile, List.rdropWhile_eq_self_iff]
  exact fun hne => h _ (List.getLast?_eq_some_getLast hne)

/-- A text that neither begins nor ends with a blank character is left alone. -/
theorem HasInkEnds.trimChars_eq {cs : List Char} (h : HasInkEnds cs) :
    trimChars cs = cs := by
  have hstart : trimStart cs = cs := by
    cases cs with
    | nil => rfl
    | cons c rest => exact List.dropWhile_cons_of_neg (h c (.inl rfl))
  rw [trimChars, hstart, trimEnd_of_getLast? fun c hc => h c (.inr hc)]

/-- What begins like a text without its leading blank characters begins with none. -/
theorem not_blank_of_isPrefix {before cs : List Char} (hbefore : before <+: trimStart cs)
    {c : Char} (h : before.head? = some c) : ¬ isBlank c := by
  obtain ⟨after, happend⟩ := hbefore
  have hhead : (cs.dropWhile isBlank).head? = some c := by
    rw [← trimStart, ← happend, List.head?_append, h]
    rfl
  have hnot := List.head?_dropWhile_not isBlank cs
  rw [hhead] at hnot
  simpa using hnot

end Text

/-! ## Class paths -/

/-- Writing dots as slashes changes nothing where there are no dots. -/
theorem slashed_of_not_mem {cs : List Char} (h : '.' ∉ cs) : slashed cs = cs := by
  refine (List.map_congr_left fun c hc => ?_).trans (List.map_id cs)
  have hne : c ≠ '.' := fun heq => h (heq ▸ hc)
  exact if_neg hne

/-- A character that is written as another does not occur any more. -/
theorem not_mem_map_replace {a b : Char} (h : b ≠ a) (cs : List Char) :
    a ∉ cs.map fun c => if c = a then b else c := by
  intro hmem
  obtain ⟨c, -, hc⟩ := List.mem_map.mp hmem
  split at hc
  · exact h hc
  · rename_i hne
    exact hne hc

theorem not_mem_slashed (cs : List Char) : '.' ∉ slashed cs :=
  not_mem_map_replace (by decide) cs

theorem not_mem_dotted (cs : List Char) : '/' ∉ dotted cs :=
  not_mem_map_replace (by decide) cs

/-- A text without slashes that comes from writing dots as slashes was not changed. -/
theorem eq_of_slashed_eq {cs path : List Char} (h : slashed cs = path) (hpath : '/' ∉ path) :
    cs = path := by
  have hdot : '.' ∉ cs := by
    intro hmem
    refine hpath ?_
    rw [← h]
    exact List.mem_map.mpr ⟨'.', hmem, rfl⟩
  rw [← h, slashed_of_not_mem hdot]

/-- A class path that a written type name can have: without dots and type arguments, without
blank characters at its ends, and not the name of a primitive type. -/
structure IsNameablePath (path : List Char) : Prop where
  noDots : '.' ∉ path
  noTypeArguments : '<' ∉ path
  ends : Text.HasInkEnds path
  notPrimitive : Primitive.ofName? (String.ofList path) = none

/-- An element that some written name denotes. -/
inductive Element.IsNameable : Element → Prop where
  | primitive (p : Primitive) : IsNameable (.primitive p)
  | object {path : String} (isNameable : IsNameablePath path.toList) : IsNameable (.object path)

/-- A descriptor that some written name denotes, or no value. -/
inductive TypeDescriptor.IsNameable : TypeDescriptor → Prop where
  | void : IsNameable .void
  | field {type : FieldType} (element : type.element.IsNameable) : IsNameable (.field type)

/-! ## From names to descriptors -/

namespace TypeName

theorem stripMarkers_suffix (cs : List Char) : (stripMarkers cs).2 <:+ cs := by
  fun_induction stripMarkers cs with
  | case1 rest ih => exact ih.trans ((List.suffix_cons '[' rest).trans (List.suffix_cons _ _))
  | case2 rest ih =>
    exact ih.trans
      ((List.suffix_cons '.' rest).trans ((List.suffix_cons '.' _).trans (List.suffix_cons _ _)))
  | case3 c rest _ _ _ ih => exact ih.trans (List.suffix_cons c rest)
  | case4 c rest _ _ _ => exact List.suffix_rfl
  | case5 => exact List.suffix_rfl

/-- The element name is the beginning of the name, without the blank characters before it. -/
theorem elementName_isPrefix (name : List Char) : elementName name <+: Text.trimStart name := by
  have hmarkers : withoutMarkers name <+: Text.trimChars name := by
    have hsuffix := stripMarkers_suffix (Text.trimChars name).reverse
    rw [← List.reverse_prefix, List.reverse_reverse] at hsuffix
    exact hsuffix
  have herased : elementName name <+: withoutMarkers name :=
    (List.rdropWhile_prefix _ _).trans (List.takeWhile_prefix _)
  exact herased.trans (hmarkers.trans (List.rdropWhile_prefix _ _))

theorem hasInkEnds_elementName (name : List Char) : Text.HasInkEnds (elementName name) := by
  rintro c (hhead | hlast)
  · exact Text.not_blank_of_isPrefix (elementName_isPrefix name) hhead
  · exact Text.not_blank_of_getLast?_trimEnd hlast

theorem not_mem_elementName (name : List Char) : '<' ∉ elementName name := by
  intro h
  have htake := Text.trimEnd_subset _ h
  have hne := List.mem_takeWhile_imp htake
  simp at hne

/-- A class path made from an element name is nameable. -/
theorem isNameablePath_slashed {name : List Char}
    (h : Primitive.ofName? (String.ofList (elementName name)) = none) :
    IsNameablePath (slashed (elementName name)) where
  noDots := not_mem_slashed _
  noTypeArguments := by
    intro hmem
    rcases mem_slashed hmem with heq | hmem
    · exact absurd heq (by decide)
    · exact not_mem_elementName name hmem
  ends := by
    intro c hc
    simp only [slashed, List.head?_map, List.getLast?_map, Option.map_eq_some_iff] at hc
    obtain ⟨d, hd, hcd⟩ : ∃ d, ((elementName name).head? = some d
        ∨ (elementName name).getLast? = some d) ∧ (if d = '.' then '/' else d) = c := by
      rcases hc with ⟨d, hd, hcd⟩ | ⟨d, hd, hcd⟩
      · exact ⟨d, .inl hd, hcd⟩
      · exact ⟨d, .inr hd, hcd⟩
    split at hcd
    · exact hcd ▸ by decide
    · exact hcd ▸ hasInkEnds_elementName name d hd
  notPrimitive := by
    -- the name of a primitive type has no slashes, so it was the element name itself
    rw [Option.eq_none_iff_forall_ne_some]
    intro p hp
    have hname := Primitive.name_of_ofName? hp
    have hslash : '/' ∉ p.name.toList := by cases p <;> decide
    have heq : elementName name = p.name.toList :=
      eq_of_slashed_eq (by rw [hname, String.toList_ofList]) hslash
    rw [heq, String.ofList_toList, Primitive.ofName?_name] at h
    cases h

theorem isNameable_anyObject : Element.anyObject.IsNameable := by
  refine .object ⟨by decide, by decide, ?_, by decide⟩
  rintro c (h | h)
  · cases h
    decide
  · cases h
    decide

/-- A written name denotes a nameable type. -/
theorem isNameable_fieldType (name : List Char) (extra : Nat) :
    (TypeDescriptor.field (fieldType name extra)).IsNameable := by
  refine .field ?_
  simp only [fieldType]
  by_cases hnil : elementName name = []
  · rw [hnil]
    exact isNameable_anyObject
  · rw [element_of_ne_nil hnil]
    cases hp : Primitive.ofName? (String.ofList (elementName name)) with
    | some p => exact .primitive p
    | none =>
      refine .object ?_
      rw [String.toList_ofList]
      exact isNameablePath_slashed hp

theorem isWellFormed_anyObject : Element.anyObject.IsWellFormed :=
  .object (by decide) (List.all_eq_true.mp (by decide : ("java/lang/Object".toList.all isPathChar)))

/-- A written name whose element name does not hold the characters that end a class path
denotes a well-formed type. -/
theorem isWellFormed_fieldType {name : List Char} (h : ∀ c ∈ elementName name, isPathChar c)
    (extra : Nat) : (TypeDescriptor.field (fieldType name extra)).IsWellFormed := by
  refine .field ?_
  simp only [fieldType]
  by_cases hnil : elementName name = []
  · rw [hnil]
    exact isWellFormed_anyObject
  · rw [element_of_ne_nil hnil]
    cases Primitive.ofName? (String.ofList (elementName name)) with
    | some p => exact .primitive p
    | none =>
      refine .object (by simpa [slashed] using hnil) fun c hc => ?_
      rw [String.toList_ofList] at hc
      rcases mem_slashed hc with rfl | hmem
      · decide
      · exact h c hmem

end TypeName

namespace HostType

/-- A type is legal if it is unresolved, or has a name other than `void` without dimensions
whose element name does not hold the characters that end a class path. -/
def IsLegal : HostType → Prop
  | .unknown => True
  | .void => False
  | .named fqn name dims =>
    let chosen := (chosenName? fqn name).getD ""
    ¬ (chosen = "void" ∧ dims = 0) ∧ ∀ c ∈ TypeName.elementName chosen.toList, isPathChar c

/-- The descriptor of a legal type is that of a value, and well-formed. -/
theorem IsLegal.descriptor {t : HostType} (h : t.IsLegal) :
    t.descriptor ≠ .void ∧ t.descriptor.IsWellFormed := by
  cases t with
  | unknown => exact ⟨TypeDescriptor.noConfusion, .field TypeName.isWellFormed_anyObject⟩
  | void => exact absurd h id
  | named fqn name dims =>
    rw [HostType.descriptor, if_neg h.1]
    exact ⟨TypeDescriptor.noConfusion, TypeName.isWellFormed_fieldType h.2 dims⟩

/-- The descriptor of a reported type is nameable. -/
theorem isNameable_descriptor (t : HostType) : t.descriptor.IsNameable := by
  cases t with
  | unknown => exact .field TypeName.isNameable_anyObject
  | void => exact .void
  | named fqn name dims =>
    rw [HostType.descriptor]
    split
    · exact .void
    · exact TypeName.isNameable_fieldType _ dims

end HostType

/-! ## From descriptors to names -/

/-- A type with a given descriptor. The empty type arguments keep a class `void` apart from
no value. -/
def HostType.ofDescriptor : TypeDescriptor → HostType
  | .void => .void
  | .field ⟨dims, .primitive p⟩ => .named (some p.name) none dims
  | .field ⟨dims, .object path⟩ => .named (some (path ++ "<>")) none dims

theorem Primitive.isBare_name (p : Primitive) : TypeName.IsBare p.name.toList := by
  cases p <;> constructor <;> decide

/-- A path with empty type arguments behind it has no blank characters at its ends. -/
theorem IsNameablePath.trimChars_eq {path : List Char} (h : IsNameablePath path)
    (hne : path ≠ []) : Text.trimChars (path ++ ['<', '>']) = path ++ ['<', '>'] := by
  obtain ⟨c, rest, rfl⟩ := List.exists_cons_of_ne_nil hne
  have hfirst : ¬ Text.isBlank c := h.ends c (.inl rfl)
  have htrim := Text.trimChars_eq_self hfirst (by decide : ¬ Text.isBlank '>') (rest ++ ['<'])
  simpa using htrim

/-- The type arguments behind a path are taken away, and nothing else. -/
theorem IsNameablePath.elementName_eq {path : List Char} (h : IsNameablePath path)
    (hne : path ≠ []) : TypeName.elementName (path ++ ['<', '>']) = path := by
  have hwithout : TypeName.withoutMarkers (path ++ ['<', '>']) = path ++ ['<', '>'] := by
    rw [TypeName.withoutMarkers, h.trimChars_eq hne, List.reverse_append]
    show ('>' :: '<' :: path.reverse).reverse = _
    simp
  have hcut : (path ++ ['<', '>']).takeWhile (· != '<') = path := by
    have hpath : ∀ c ∈ path, c != '<' := by
      intro c hc
      have hc' : c ≠ '<' := fun heq => h.noTypeArguments (heq ▸ hc)
      simpa using hc'
    rw [List.takeWhile_append_of_pos hpath]
    simp
  rw [TypeName.elementName, hwithout, TypeName.erased, hcut,
    Text.trimEnd_of_getLast? fun c hc => h.ends c (.inr hc)]

theorem IsNameablePath.fieldType_eq {path : List Char} (h : IsNameablePath path)
    (hne : path ≠ []) (extra : Nat) :
    TypeName.fieldType (path ++ ['<', '>']) extra = ⟨extra, .object (String.ofList path)⟩ := by
  have hmarkers : TypeName.markerCount (path ++ ['<', '>']) = 0 := by
    rw [TypeName.markerCount, h.trimChars_eq hne, List.reverse_append]
    rfl
  rw [TypeName.fieldType, hmarkers, h.elementName_eq hne, TypeName.element_of_ne_nil hne,
    h.notPrimitive]
  show FieldType.mk (extra + 0) (.object (String.ofList (slashed path))) = _
  rw [slashed_of_not_mem h.noDots, Nat.add_zero]

namespace HostType

theorem chosenName?_of_trim {n : String} (h : Text.trim n = n) (hne : n ≠ "") :
    chosenName? (some n) none = some n := by
  simp [chosenName?, h, hne]

theorem chosenName?_of_isNameablePath {path : String} (h : IsNameablePath path.toList)
    (hne : path.toList ≠ []) : chosenName? (some (path ++ "<>")) none = some (path ++ "<>") := by
  have hchars : (path ++ "<>").toList = path.toList ++ ['<', '>'] := String.toList_append
  refine chosenName?_of_trim ?_ ?_
  · rw [Text.trim, hchars, h.trimChars_eq hne, ← hchars, String.ofList_toList]
  · intro heq
    rw [heq] at hchars
    simp at hchars

/-- A legal type for each field type of a primitive element. -/
theorem ofDescriptor_primitive (p : Primitive) (dims : Nat) :
    (ofDescriptor (.field ⟨dims, .primitive p⟩)).IsLegal ∧
      (ofDescriptor (.field ⟨dims, .primitive p⟩)).descriptor = .field ⟨dims, .primitive p⟩ := by
  have hbare := p.isBare_name
  have hvoid : p.name ≠ "void" := by cases p <;> decide
  have hchars : p.name.toList.all isPathChar := by cases p <;> decide
  have hchosen : chosenName? (some p.name) none = some p.name := by
    refine chosenName?_of_trim ?_ ?_
    · rw [Text.trim, hbare.trimmed, String.ofList_toList]
    · cases p <;> decide
  constructor
  · simp only [ofDescriptor, IsLegal, hchosen, Option.getD_some]
    refine ⟨fun h => hvoid h.1, fun c hc => ?_⟩
    exact List.all_eq_true.mp hchars c (TypeName.elementName_subset _ hc)
  · show (HostType.named (some p.name) none dims).descriptor = _
    rw [descriptor_of_bare hbare, if_neg fun h => hvoid h.1,
      TypeName.element_of_ne_nil hbare.nonempty, String.ofList_toList, Primitive.ofName?_name]

/-- A legal type for each field type of a nameable class. -/
theorem ofDescriptor_object {path : String} (h : IsNameablePath path.toList)
    (hne : path.toList ≠ []) (hpath : ∀ c ∈ path.toList, isPathChar c) (dims : Nat) :
    (ofDescriptor (.field ⟨dims, .object path⟩)).IsLegal ∧
      (ofDescriptor (.field ⟨dims, .object path⟩)).descriptor = .field ⟨dims, .object path⟩ := by
  have hchosen := chosenName?_of_isNameablePath h hne
  have hchars : (path ++ "<>").toList = path.toList ++ ['<', '>'] := String.toList_append
  have hvoid : path ++ "<>" ≠ "void" := by
    intro heq
    have hlast : (path.toList ++ ['<', '>']).getLast? = "void".toList.getLast? := by
      rw [← hchars, heq]
    simp [List.getLast?_append] at hlast
  constructor
  · simp only [ofDescriptor, IsLegal, hchosen, Option.getD_some, hchars, h.elementName_eq hne]
    exact ⟨fun heq => hvoid heq.1, hpath⟩
  · show (HostType.named (some (path ++ "<>")) none dims).descriptor = _
    rw [descriptor, hchosen, Option.getD_some, if_neg fun heq => hvoid heq.1, hchars,
      h.fieldType_eq hne, String.ofList_toList]

/-- **Well-formed descriptors that are nameable are those of legal types.** -/
theorem ofDescriptor_field {type : FieldType} (hwell : type.element.IsWellFormed)
    (hname : type.element.IsNameable) :
    (ofDescriptor (.field type)).IsLegal ∧
      (ofDescriptor (.field type)).descriptor = .field type := by
  obtain ⟨dims, element⟩ := type
  cases hname with
  | primitive p => exact ofDescriptor_primitive p dims
  | object hpath =>
    cases hwell with
    | object hne hchars => exact ofDescriptor_object hpath hne hchars dims

end HostType

end DeprecatedApi
