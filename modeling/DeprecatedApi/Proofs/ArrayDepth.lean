import DeprecatedApi.Proofs.TypeArguments

/-!
# Array depth

A dimension of an array can be written behind the name, as `[]` or as `...`, with or without blank
characters before it, or it can be given beside the name. It counts the same in all cases, and it
is always one `[` in the descriptor. This holds of every text, also of those that are no names:
a marker is taken off before the name is looked at, so what stands before it does not matter.

* `TypeName.stripMarkers_trimChars_append`: a marker at the end of a name is taken off, and what is
  left is stripped as if it had stood alone.
* `TypeName.fieldType_append_markers`: markers are dimensions.
* `arrayDimensions_nameDescriptor`: the depth of a descriptor.
* `HostType.descriptor_append_markers`: the same for reported types, `void` included.
* `array_depth_is_preserved`: the dimensions of a type, however they are given.
-/

namespace DeprecatedApi

namespace TypeName

/-! ## Markers and blank characters -/

/-- Stripping passes over a blank character. -/
theorem stripMarkers_of_isBlank {c : Char} (h : Text.isBlank c) (rest : List Char) :
    stripMarkers (c :: rest) = stripMarkers rest := by
  have hbracket : c ≠ ']' := by
    rintro rfl
    exact absurd h (by decide)
  have hdot : c ≠ '.' := by
    rintro rfl
    exact absurd h (by decide)
  generalize hcs : c :: rest = cs
  fun_cases stripMarkers cs with
  | case1 rest' =>
    cases hcs
    exact absurd rfl hbracket
  | case2 rest' =>
    cases hcs
    exact absurd rfl hdot
  | case3 c' rest' _ _ _ =>
    cases hcs
    rfl
  | case4 c' rest' _ _ hink =>
    cases hcs
    exact absurd h hink
  | case5 => cases hcs

theorem stripMarkers_blank_append {blanks : List Char} (h : ∀ c ∈ blanks, Text.isBlank c)
    (rest : List Char) : stripMarkers (blanks ++ rest) = stripMarkers rest := by
  induction blanks with
  | nil => rfl
  | cons c blanks ih =>
    rw [List.forall_mem_cons] at h
    rw [List.cons_append, stripMarkers_of_isBlank h.1, ih h.2]

/-- Blank characters at the end of a name make no difference to its markers. -/
theorem stripMarkers_reverse_trimEnd (cs : List Char) :
    stripMarkers (Text.trimEnd cs).reverse = stripMarkers cs.reverse := by
  have hsplit : Text.trimEnd cs ++ cs.rtakeWhile Text.isBlank = cs :=
    List.rdropWhile_append_rtakeWhile
  have hblank : ∀ c ∈ (cs.rtakeWhile Text.isBlank).reverse, Text.isBlank c := by
    intro c hc
    exact List.mem_rtakeWhile_imp (List.mem_reverse.mp hc)
  have hreverse := congrArg List.reverse hsplit
  rw [List.reverse_append] at hreverse
  rw [← hreverse, stripMarkers_blank_append hblank]

/-- Trimming leaves a marker at the end of a text alone. -/
theorem trimChars_append_marker (cs : List Char) (marker : Marker) :
    Text.trimChars (cs ++ marker.chars) = Text.trimStart cs ++ marker.chars := by
  obtain ⟨first, rest, last, hfirst, hlast, hink, hink'⟩ : ∃ first rest last,
      marker.chars = first :: rest ∧ marker.chars.getLast? = some last ∧
      ¬ Text.isBlank first ∧ ¬ Text.isBlank last := by
    cases marker with
    | brackets => exact ⟨'[', [']'], ']', rfl, rfl, by decide, by decide⟩
    | dots => exact ⟨'.', ['.', '.'], '.', rfl, rfl, by decide, by decide⟩
  have hstart : Text.trimStart (cs ++ marker.chars) = Text.trimStart cs ++ marker.chars := by
    by_cases hcs : ∀ c ∈ cs, Text.isBlank c
    · have hnil : Text.trimStart cs = [] := List.dropWhile_eq_nil_iff.mpr hcs
      rw [Text.trimStart_blank_append hcs, hnil, hfirst]
      exact List.dropWhile_cons_of_neg hink
    · exact Text.trimStart_append_of_not_blank hcs _
  rw [Text.trimChars, hstart]
  refine Text.trimEnd_of_getLast? fun c hc => ?_
  rw [List.getLast?_append, hlast] at hc
  exact Option.some.inj hc ▸ hink'

/-- **One marker.** A marker at the end of a name is taken off and counted, and what stands before
it is stripped as if it had stood alone. -/
theorem stripMarkers_trimChars_append (cs : List Char) (marker : Marker) :
    stripMarkers (Text.trimChars (cs ++ marker.chars)).reverse
      = addMarker (stripMarkers (Text.trimChars cs).reverse) := by
  rw [trimChars_append_marker, List.reverse_append, stripMarkers_marker, Text.trimChars,
    stripMarkers_reverse_trimEnd]

/-- **Step**: a marker is a dimension. -/
theorem fieldType_append_marker (name : List Char) (marker : Marker) (extra : Nat) :
    fieldType (name ++ marker.chars) extra = fieldType name (extra + 1) := by
  have hstrip := stripMarkers_trimChars_append name marker
  have hcount : markerCount (name ++ marker.chars) = markerCount name + 1 :=
    congrArg Prod.fst hstrip
  have hrest : withoutMarkers (name ++ marker.chars) = withoutMarkers name :=
    congrArg (fun found => found.2.reverse) hstrip
  have hdims : extra + (markerCount name + 1) = extra + 1 + markerCount name := by omega
  rw [fieldType, fieldType, elementName, elementName, hcount, hrest, hdims]

/-- **Run**: markers are dimensions. -/
theorem fieldType_append_markers (name : List Char) (markers : List Marker) (extra : Nat) :
    fieldType (name ++ markers.flatMap Marker.chars) extra
      = fieldType name (extra + markers.length) := by
  -- the first marker belongs to the name before the others do
  induction markers generalizing name with
  | nil => rw [List.flatMap_nil, List.append_nil, List.length_nil, Nat.add_zero]
  | cons marker markers ih =>
    rw [List.flatMap_cons, ← List.append_assoc, ih, fieldType_append_marker, List.length_cons,
      Nat.add_assoc]

end TypeName

/-! ## Descriptors -/

/-- The text of a written name: all its dimensions, and then the element. -/
theorem toList_nameDescriptor (name : String) (extra : Nat) :
    (nameDescriptor name extra).toList
      = List.replicate (extra + TypeName.markerCount name.toList) '['
        ++ (TypeName.element (TypeName.elementName name.toList)).chars := by
  rw [nameDescriptor, String.toList_ofList, FieldType.chars, TypeName.fieldType]

/-- A further dimension is one more `[`. -/
theorem nameDescriptor_succ (name : String) (extra : Nat) :
    nameDescriptor name (extra + 1) = "[" ++ nameDescriptor name extra := by
  have hdims : extra + 1 + TypeName.markerCount name.toList
      = extra + TypeName.markerCount name.toList + 1 := by omega
  rw [← String.toList_inj, String.toList_append, toList_nameDescriptor, toList_nameDescriptor,
    hdims, List.replicate_succ]
  rfl

/-- The depth of a descriptor is the number of dimensions, in the name and beside it. -/
theorem arrayDimensions_nameDescriptor (name : String) (extra : Nat) :
    arrayDimensions (nameDescriptor name extra) = extra + TypeName.markerCount name.toList := by
  -- no element begins like a dimension
  obtain ⟨c, rest, hchars, hne, -⟩ :=
    (TypeName.element (TypeName.elementName name.toList)).exists_chars_eq
  have hstop : (c :: rest).takeWhile (· == '[') = [] :=
    List.takeWhile_cons_of_neg (by simpa using hne)
  have hdims : ∀ a ∈ List.replicate (extra + TypeName.markerCount name.toList) '[',
      (a == '[') = true := by
    intro a ha
    rw [List.eq_of_mem_replicate ha]
    rfl
  rw [arrayDimensions, toList_nameDescriptor, hchars, List.takeWhile_append_of_pos hdims,
    hstop, List.append_nil, List.length_replicate]

/-! ## Reported types -/

namespace HostType

/-- The descriptor of a type that is reported under a name which is not blank. -/
theorem descriptor_of_not_allBlank {n : String} (h : ¬ Text.allBlank n) (name : Option String)
    (dims : Nat) :
    (HostType.named (some n) name dims).descriptor
      = if Text.trim n = "void" ∧ dims = 0 then .void
        else .field (TypeName.fieldType n.toList dims) := by
  have hne : Text.trim n ≠ "" := by
    intro hempty
    exact h (List.all_eq_true.mpr (Text.trimChars_eq_nil_iff.mp (String.ofList_inj.mp hempty)))
  have hchosen : chosenName? (some n) name = some (Text.trim n) := by
    simp [chosenName?, hne]
  rw [descriptor, hchosen, Option.getD_some]
  show (if _ then _ else TypeDescriptor.field (TypeName.fieldType (Text.trim n).toList dims)) = _
  rw [Text.trim, String.toList_ofList, TypeName.fieldType_trimChars]

/-- A name with a marker is not `void`. -/
theorem trim_append_marker_ne_void (cs : List Char) (marker : TypeName.Marker) :
    Text.trim (String.ofList (cs ++ marker.chars)) ≠ "void" := by
  intro h
  have hchars : Text.trimStart cs ++ marker.chars = "void".toList := by
    rw [← TypeName.trimChars_append_marker, ← String.ofList_inj, String.ofList_toList, ← h,
      Text.trim, String.toList_ofList]
  have hlast := congrArg List.getLast? hchars
  rw [List.getLast?_append] at hlast
  cases marker with
  | brackets => cases hlast
  | dots => cases hlast

/-- Markers behind the name of a reported type count like dimensions beside it. -/
theorem descriptor_append_markers {n : String} (h : ¬ Text.allBlank n)
    (markers : List TypeName.Marker) (name other : Option String) (dims : Nat) :
    (HostType.named (some (n ++ String.ofList (markers.flatMap TypeName.Marker.chars))) name
        dims).descriptor
      = (HostType.named (some n) other (dims + markers.length)).descriptor := by
  have hblank : ¬ Text.allBlank (n ++ String.ofList (markers.flatMap TypeName.Marker.chars)) := by
    intro hall
    rw [Text.allBlank, String.toList_append, List.all_append, Bool.and_eq_true] at hall
    exact h hall.1
  rw [descriptor_of_not_allBlank hblank, descriptor_of_not_allBlank h, String.toList_append,
    String.toList_ofList, TypeName.fieldType_append_markers]
  -- `void` is no value only without dimensions, and then there are no markers either
  cases hmarkers : markers.reverse with
  | nil =>
    rw [List.reverse_eq_nil_iff.mp hmarkers]
    simp
  | cons last earlier =>
    have hsplit : markers = earlier.reverse ++ [last] := by
      rw [← List.reverse_reverse markers, hmarkers, List.reverse_cons]
    have hvoid := trim_append_marker_ne_void
      (n.toList ++ earlier.reverse.flatMap TypeName.Marker.chars) last
    have htext : n ++ String.ofList (markers.flatMap TypeName.Marker.chars)
        = String.ofList (n.toList ++ earlier.reverse.flatMap TypeName.Marker.chars
          ++ last.chars) := by
      rw [← String.toList_inj, String.toList_append, String.toList_ofList, String.toList_ofList,
        hsplit, List.flatMap_append, List.flatMap_singleton, List.append_assoc]
    have hdims : dims + markers.length ≠ 0 := by
      rw [hsplit, List.length_append, List.length_singleton]
      omega
    rw [htext, if_neg fun hboth => hvoid hboth.1, if_neg fun hboth => hdims hboth.2]

end HostType

/-! ## Main result -/

/-- **Array depth is preserved, however it is written.** Take any text as a name. A `[]` or a `...`
behind it, with any blank characters before, counts like a dimension beside the name, and that is
one `[` before the descriptor. Blank characters around the name do not matter. The dimensions
beside the name add to the depth of the descriptor. A type that is reported under a name with
markers behind it is the type of the name with so many more dimensions, unless the name is
blank. -/
theorem array_depth_is_preserved (n : String) (d : Nat) :
    (∀ blanks : String, Text.allBlank blanks →
      nameDescriptor (n ++ blanks ++ "[]") d = nameDescriptor n (d + 1) ∧
      nameDescriptor (n ++ blanks ++ "...") d = nameDescriptor n (d + 1)) ∧
    nameDescriptor n (d + 1) = "[" ++ nameDescriptor n d ∧
    (∀ before after : String, Text.allBlank before → Text.allBlank after →
      nameDescriptor (before ++ n ++ after) d = nameDescriptor n d) ∧
    arrayDimensions (nameDescriptor n d) = d + arrayDimensions (nameDescriptor n 0) ∧
    (¬ Text.allBlank n → ∀ (markers : List TypeName.Marker) (name other : Option String),
      (HostType.named (some (n ++ String.ofList (markers.flatMap TypeName.Marker.chars))) name
          d).descriptor
        = (HostType.named (some n) other (d + markers.length)).descriptor) := by
  have hpad : ∀ (before after : String) (extra : Nat), Text.allBlank before →
      Text.allBlank after →
      TypeName.fieldType (before ++ n ++ after).toList extra
        = TypeName.fieldType n.toList extra := by
    intro before after extra hbefore hafter
    rw [String.toList_append, String.toList_append]
    exact TypeName.fieldType_pad (List.all_eq_true.mp hbefore) (List.all_eq_true.mp hafter) _ _
  have hmarker : ∀ (marker : TypeName.Marker) (text blanks : String), text.toList = marker.chars →
      Text.allBlank blanks → nameDescriptor (n ++ blanks ++ text) d = nameDescriptor n (d + 1) := by
    intro marker text blanks htext hblanks
    have hname := hpad "" blanks (d + 1) rfl hblanks
    rw [String.empty_append] at hname
    rw [nameDescriptor, String.toList_append, htext, TypeName.fieldType_append_marker, hname,
      nameDescriptor]
  refine ⟨?_, nameDescriptor_succ n d, ?_, ?_, ?_⟩
  · intro blanks hblanks
    exact ⟨hmarker .brackets "[]" blanks (by decide) hblanks,
      hmarker .dots "..." blanks (by decide) hblanks⟩
  · intro before after hbefore hafter
    rw [nameDescriptor, hpad before after d hbefore hafter, nameDescriptor]
  · rw [arrayDimensions_nameDescriptor, arrayDimensions_nameDescriptor, Nat.zero_add]
  · intro hblank markers name other
    exact HostType.descriptor_append_markers hblank markers name other d

/-- An array of `void`, as a reported type, is the array of a class of this name, whether its
dimensions are written or not; a marker that stands alone is an array of anything. -/
theorem array_depth_of_void_and_blank :
    (HostType.named (some " void[]...") none 0).descriptor
      = (HostType.named (some " void") (some "x") 2).descriptor ∧
    nameDescriptor " \t[]" 1 = nameDescriptor " " 2 ∧
    nameDescriptor "....\n..." 0 = "[" ++ nameDescriptor "...." 0 := by
  have hvoid := (array_depth_is_preserved " void" 0).2.2.2.2 (by decide) [.brackets, .dots]
    none (some "x")
  have hblank := ((array_depth_is_preserved " " 1).1 "\t" (by decide)).1
  have hdots := ((array_depth_is_preserved "...." 0).1 "\n" (by decide)).2
  exact ⟨hvoid, hblank, hdots.trans (array_depth_is_preserved "...." 0).2.1⟩

end DeprecatedApi
