import DeprecatedApi.Descriptor.TypeName
import DeprecatedApi.Proofs.Trimming

/-!
# What a written type name leaves

The element name is what markers, type arguments and blank characters leave of a
written name. It has no characters of its own, and a *bare* name, which has none of
these, is its own element name.

* `TypeName.elementName_subset`: the element name has no new characters.
* `TypeName.fieldType_pad`: blank characters around a written name do not matter.
* `TypeName.IsBare`, `TypeName.fieldType_of_bare`: names that are left alone.
* `TypeName.element_inj`: different names without slashes are different elements.
-/

namespace DeprecatedApi

/-! ## Class paths -/

/-- Writing dots as slashes adds slashes only. -/
theorem mem_slashed {c : Char} {cs : List Char} (h : c ∈ slashed cs) : c = '/' ∨ c ∈ cs := by
  obtain ⟨d, hd, rfl⟩ := List.mem_map.mp h
  split
  · exact .inl rfl
  · exact .inr hd

/-- Writing one character as another, and the other one as the first, changes a text back
unless the other one was in it before. -/
theorem map_replace_back {a b : Char} {cs : List Char} (h : b ∉ cs) :
    (cs.map fun c => if c = a then b else c).map (fun c => if c = b then a else c) = cs := by
  rw [List.map_map]
  refine (List.map_congr_left fun c hc => ?_).trans (List.map_id cs)
  have hne : c ≠ b := fun heq => h (heq ▸ hc)
  by_cases hfirst : c = a
  · simp [hfirst]
  · simp [hfirst, hne]

/-- A name without slashes is read back from its path. -/
theorem dotted_slashed {cs : List Char} (h : '/' ∉ cs) : dotted (slashed cs) = cs :=
  map_replace_back h

/-- A path without dots is written back from its name. -/
theorem slashed_dotted {cs : List Char} (h : '.' ∉ cs) : slashed (dotted cs) = cs :=
  map_replace_back h

/-- Names without slashes have different paths. -/
theorem slashed_inj {as bs : List Char} (ha : '/' ∉ as) (hb : '/' ∉ bs)
    (h : slashed as = slashed bs) : as = bs := by
  rw [← dotted_slashed ha, ← dotted_slashed hb, h]

/-- The primitive type of a name has that name. -/
theorem Primitive.name_of_ofName? {s : String} {p : Primitive} (h : ofName? s = some p) :
    p.name = s := by
  have := List.find?_some h
  simpa using this

namespace TypeName

/-! ## Characters of the element name -/

theorem stripMarkers_subset (cs : List Char) : (stripMarkers cs).2 ⊆ cs := by
  fun_induction stripMarkers cs with
  | case1 rest ih => exact fun c hc => List.mem_cons_of_mem _ (List.mem_cons_of_mem _ (ih hc))
  | case2 rest ih =>
    exact fun c hc =>
      List.mem_cons_of_mem _ (List.mem_cons_of_mem _ (List.mem_cons_of_mem _ (ih hc)))
  | case3 c rest _ _ hblank ih => exact fun d hd => List.mem_cons_of_mem _ (ih hd)
  | case4 c rest _ _ hblank => exact fun d hd => hd
  | case5 => exact fun d hd => hd

theorem withoutMarkers_subset (name : List Char) : withoutMarkers name ⊆ name := by
  intro c hc
  have hstrip := stripMarkers_subset _ (List.mem_reverse.mp hc)
  exact Text.trimChars_subset name (List.mem_reverse.mp hstrip)

/-- The element name has no characters of its own. -/
theorem elementName_subset (name : List Char) : elementName name ⊆ name := by
  intro c hc
  have herased := Text.trimEnd_subset _ hc
  exact withoutMarkers_subset name (List.takeWhile_subset _ herased)

theorem element_fieldType (name : List Char) (extra : Nat) :
    (fieldType name extra).element = element (elementName name) := by
  rw [fieldType]

/-- Blank characters around a written name do not matter. -/
theorem fieldType_pad {before after : List Char} (hb : ∀ c ∈ before, Text.isBlank c)
    (ha : ∀ c ∈ after, Text.isBlank c) (name : List Char) (extra : Nat) :
    fieldType (before ++ name ++ after) extra = fieldType name extra := by
  simp only [fieldType, markerCount, elementName, withoutMarkers, Text.trimChars_pad hb ha]

/-- A name is trimmed before anything else is done with it. -/
theorem fieldType_trimChars (name : List Char) (extra : Nat) :
    fieldType (Text.trimChars name) extra = fieldType name extra := by
  simp only [fieldType, markerCount, elementName, withoutMarkers, Text.trimChars_trimChars]

/-! ## Bare names -/

/-- A name with nothing to take away: no blank characters at its ends, no array markers
at its end, no type arguments. -/
structure IsBare (name : List Char) : Prop where
  trimmed : Text.trimChars name = name
  nonempty : name ≠ []
  noTypeArguments : '<' ∉ name
  noBrackets : ¬ ['[', ']'] <:+ name
  noDots : ¬ ['.', '.', '.'] <:+ name

theorem IsBare.last_not_blank {name : List Char} (h : IsBare name) {c : Char}
    (hc : name.getLast? = some c) : ¬ Text.isBlank c := by
  rw [← h.trimmed] at hc
  exact Text.not_blank_of_getLast?_trimEnd hc

theorem IsBare.stripMarkers_reverse {name : List Char} (h : IsBare name) :
    stripMarkers name.reverse = (0, name.reverse) := by
  have hlast : ∀ c rest, name.reverse = c :: rest → ¬ Text.isBlank c := by
    intro c rest hrev
    refine h.last_not_blank ?_
    rw [List.getLast?_eq_head?_reverse, hrev, List.head?_cons]
  -- one case for each way in which stripping could begin
  generalize hrev : name.reverse = cs at hlast ⊢
  fun_cases stripMarkers cs with
  | case1 rest =>
    refine absurd ⟨rest.reverse, ?_⟩ h.noBrackets
    rw [← List.reverse_reverse name, hrev]
    simp
  | case2 rest =>
    refine absurd ⟨rest.reverse, ?_⟩ h.noDots
    rw [← List.reverse_reverse name, hrev]
    simp
  | case3 c rest _ _ hblank => exact absurd hblank (hlast c rest rfl)
  | case4 c rest _ _ hblank => rfl
  | case5 => rfl

/-- A bare name is its own element name, and has no dimensions of its own. -/
theorem fieldType_of_bare {name : List Char} (h : IsBare name) (extra : Nat) :
    fieldType name extra = ⟨extra, element name⟩ := by
  have hstrip := h.stripMarkers_reverse
  have hmarkers : markerCount name = 0 := by rw [markerCount, h.trimmed, hstrip]
  have hwithout : withoutMarkers name = name := by
    rw [withoutMarkers, h.trimmed, hstrip, List.reverse_reverse]
  have hcut : name.takeWhile (· != '<') = name := by
    refine List.takeWhile_eq_self_iff.mpr fun c hc => ?_
    have hne : c ≠ '<' := fun heq => h.noTypeArguments (heq ▸ hc)
    simpa using hne
  have hend : Text.trimEnd name = name := by
    rw [Text.trimEnd_eq_rdropWhile, List.rdropWhile_eq_self_iff]
    exact fun hne => h.last_not_blank (List.getLast?_eq_some_getLast hne)
  rw [fieldType, hmarkers, elementName, hwithout, erased, hcut, hend, Nat.add_zero]

/-! ## Elements -/

theorem element_of_ne_nil {name : List Char} (h : name ≠ []) :
    element name = match Primitive.ofName? (String.ofList name) with
      | some p => .primitive p
      | none => .ofDotted name := by
  unfold element
  exact if_neg (by simpa using h)

/-- Different names without slashes are different elements: a class is never a
primitive type, and its path gives its name back. -/
theorem element_inj {as bs : List Char} (ha : as ≠ []) (hb : bs ≠ []) (ha' : '/' ∉ as)
    (hb' : '/' ∉ bs) (h : element as = element bs) : as = bs := by
  rw [element_of_ne_nil ha, element_of_ne_nil hb] at h
  cases hp : Primitive.ofName? (String.ofList as) with
  | some p =>
    cases hq : Primitive.ofName? (String.ofList bs) with
    | some q =>
      rw [hp, hq] at h
      have hpq : p = q := Element.primitive.inj h
      have hname := Primitive.name_of_ofName? hp
      rw [hpq, Primitive.name_of_ofName? hq] at hname
      exact (String.ofList_inj.mp hname).symm
    | none =>
      rw [hp, hq] at h
      cases h
  | none =>
    cases hq : Primitive.ofName? (String.ofList bs) with
    | some q =>
      rw [hp, hq] at h
      cases h
    | none =>
      rw [hp, hq] at h
      have hpath := Element.object.inj h
      exact slashed_inj ha' hb' (String.ofList_inj.mp hpath)

end TypeName

end DeprecatedApi
