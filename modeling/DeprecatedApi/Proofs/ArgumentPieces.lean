import DeprecatedApi.Proofs.TopLevelCuts

/-!
# Which texts are argument lists

An argument list is cut at its commas of depth zero. What stands between two neighbouring
cuts is a *piece*, and a text in parentheses is an argument list if no piece is blank, or if
there is nothing in the parentheses at all. Written lists and reported types come to the same
descriptors, although they take different ways.

* `ArgumentList.IsPiece`: the pieces of a text, by the depth of its commas.
* `ArgumentList.mem_splitTopLevel_iff`: splitting gives the pieces.
* `ArgumentList.parse_eq_ok_iff`: which texts are read, and as what.
* `HostType.HasName`: types that are reported under a name.
* `argument_lists_agree_with_reported_types`: exactly the well-formed lists are accepted, and
  they are read as the types with these names are reported.
-/

namespace DeprecatedApi

namespace ArgumentList

/-! ## Pieces -/

/-- Where a piece can begin: at the beginning of the text, or behind a comma of depth zero. -/
def BeginsPiece (before : List Char) : Prop :=
  before = [] ∨ ∃ earlier, before = earlier ++ [','] ∧ depthFrom 0 earlier = 0

/-- Where a piece can end: at the end of the text, or before a comma of depth zero. -/
def EndsPiece (before after : List Char) : Prop :=
  after = [] ∨ ∃ later, after = ',' :: later ∧ depthFrom 0 before = 0

/-- What stands between two neighbouring commas of depth zero, or between one of them and an
end of the text. -/
def IsPiece (cs piece : List Char) : Prop :=
  ∃ before after, cs = before ++ piece ++ after ∧ BeginsPiece before ∧
    EndsPiece (before ++ piece) after ∧ IsUncut (depthFrom 0 before) piece

/-- A comma does not change the depth. -/
theorem depthAfter_comma (depth : Nat) : depthAfter depth ',' = depth := rfl

/-- A text is not cut at all, or it has a first cut. -/
theorem isUncut_or_exists_cut (depth : Nat) (cs : List Char) :
    IsUncut depth cs ∨
      ∃ first rest, cs = first ++ ',' :: rest ∧ IsUncut depth first ∧
        depthFrom depth first = 0 := by
  induction cs generalizing depth with
  | nil => exact .inl (isUncut_nil depth)
  | cons c cs ih =>
    by_cases hcut : c = ',' ∧ depth = 0
    · obtain ⟨rfl, rfl⟩ := hcut
      exact .inr ⟨[], cs, rfl, isUncut_nil 0, rfl⟩
    · rcases ih (depthAfter depth c) with hrest | ⟨first, rest, rfl, hfirst, hdepth⟩
      · exact .inl (isUncut_cons_iff.mpr ⟨hcut, hrest⟩)
      · exact .inr ⟨c :: first, rest, rfl, isUncut_cons_iff.mpr ⟨hcut, hfirst⟩, hdepth⟩

/-- The first cut of a text is determined: what stands before it is not cut, and cannot be
longer than what ends at another cut. -/
theorem isPrefix_of_isUncut {first other rest after : List Char} {depth : Nat}
    (hfirst : IsUncut depth first) (hother : depthFrom depth other = 0)
    (h : first ++ rest = other ++ ',' :: after) : first <+: other := by
  rcases List.append_eq_append_iff.mp h with ⟨extra, hextra, -⟩ | ⟨extra, hextra, hafter⟩
  · exact ⟨extra, hextra.symm⟩
  · cases extra with
    | nil => exact ⟨[], by simpa using hextra⟩
    | cons c extra =>
      -- the other cut would stand inside of `first`
      obtain ⟨rfl, -⟩ := List.cons.inj hafter
      exact absurd hother (hfirst other extra hextra)

/-- A text that is not cut is its only piece. -/
theorem isPiece_iff_of_isUncut {cs piece : List Char} (h : IsUncut 0 cs) :
    IsPiece cs piece ↔ piece = cs := by
  constructor
  · rintro ⟨before, after, hcs, hbegins, hends, -⟩
    have hbefore : before = [] := by
      rcases hbegins with hnil | ⟨earlier, rfl, hdepth⟩
      · exact hnil
      · exact absurd hdepth (h earlier (piece ++ after) (by simpa using hcs))
    have hafter : after = [] := by
      rcases hends with hnil | ⟨later, rfl, hdepth⟩
      · exact hnil
      · exact absurd hdepth (h (before ++ piece) later hcs)
    rw [hcs, hbefore, hafter, List.nil_append, List.append_nil]
  · rintro rfl
    exact ⟨[], [], by simp, .inl rfl, .inl rfl, h⟩

/-- The pieces of a text with a first cut are what stands before it, and the pieces of what
stands behind it. -/
theorem isPiece_iff_of_cut {first rest piece : List Char} (hfirst : IsUncut 0 first)
    (hdepth : depthFrom 0 first = 0) :
    IsPiece (first ++ ',' :: rest) piece ↔ piece = first ∨ IsPiece rest piece := by
  constructor
  · rintro ⟨before, after, hcs, hbegins, hends, huncut⟩
    rcases hbegins with rfl | ⟨earlier, rfl, hearlier⟩
    · -- the first piece ends at the first cut
      left
      have hpiece : piece <+: first := isPrefix_of_isUncut huncut hdepth hcs.symm
      rcases hends with rfl | ⟨later, rfl, hlater⟩
      · have hlength : piece.length = first.length + (rest.length + 1) := by
          simpa using (congrArg List.length hcs).symm
        have hle := hpiece.length_le
        omega
      · exact hpiece.eq_of_length_le (isPrefix_of_isUncut hfirst hlater hcs).length_le
    · -- the cut before the piece is the first one or a later one
      right
      have hcs' : first ++ ',' :: rest = earlier ++ ',' :: (piece ++ after) := by
        simpa using hcs
      obtain ⟨between, rfl⟩ := isPrefix_of_isUncut hfirst hearlier hcs'
      rw [List.append_assoc, List.append_cancel_left_eq] at hcs'
      cases between with
      | nil =>
        obtain ⟨-, rfl⟩ := List.cons.inj hcs'
        refine ⟨[], after, rfl, .inl rfl, ?_, ?_⟩
        · simpa [EndsPiece, hdepth, depthAfter_comma] using hends
        · simpa [hdepth, depthAfter_comma] using huncut
      | cons c between =>
        obtain ⟨rfl, rfl⟩ := List.cons.inj hcs'
        refine ⟨between ++ [','], after, by simp, .inr ⟨between, rfl, ?_⟩, ?_, ?_⟩
        · simpa [hdepth, depthAfter_comma] using hearlier
        · simpa [EndsPiece, hdepth, depthAfter_comma] using hends
        · simpa [hdepth, depthAfter_comma] using huncut
  · rintro (rfl | ⟨before, after, rfl, hbegins, hends, huncut⟩)
    · exact ⟨[], ',' :: rest, rfl, .inl rfl, .inr ⟨rest, rfl, hdepth⟩, hfirst⟩
    · refine ⟨first ++ ',' :: before, after, by simp, .inr ?_, ?_, ?_⟩
      · rcases hbegins with rfl | ⟨earlier, rfl, hearlier⟩
        · exact ⟨first, rfl, hdepth⟩
        · refine ⟨first ++ ',' :: earlier, by simp, ?_⟩
          simpa [hdepth, depthAfter_comma] using hearlier
      · simpa [EndsPiece, hdepth, depthAfter_comma] using hends
      · simpa [hdepth, depthAfter_comma] using huncut

/-- **Splitting gives the pieces.** -/
theorem mem_splitTopLevel_iff {cs piece : List Char} :
    piece ∈ splitTopLevel cs ↔ IsPiece cs piece := by
  -- from one cut to the next, so by the length of what is left
  induction hlength : cs.length using Nat.strong_induction_on generalizing cs with
  | h n ih =>
    rcases isUncut_or_exists_cut 0 cs with huncut | ⟨first, rest, rfl, hfirst, hdepth⟩
    · rw [splitTopLevel, huncut.splitFrom_eq, List.mem_singleton, isPiece_iff_of_isUncut huncut]
    · have hshorter : rest.length < n := by
        rw [← hlength, List.length_append, List.length_cons]
        omega
      rw [splitTopLevel, splitFrom_append_comma hdepth, hfirst.splitFrom_eq, List.singleton_append,
        List.mem_cons, isPiece_iff_of_cut hfirst hdepth, ← ih rest.length hshorter rfl]
      rfl

/-! ## Accepted texts -/

theorem inner?_eq_some_iff {cs inner : List Char} :
    inner? cs = some inner ↔ Text.trimChars cs = '(' :: inner ++ [')'] := by
  unfold inner?
  split
  · rename_i rest htrim
    rw [htrim, List.cons_append, List.cons.injEq]
    constructor
    · intro h
      split at h
      · rename_i hlast
        obtain rfl := Option.some.inj h
        exact ⟨rfl, (List.dropLast_append_getLast? ')' hlast).symm⟩
      · cases h
    · rintro ⟨-, rfl⟩
      simp
  · rename_i hnot
    constructor
    · intro h
      cases h
    · intro h
      exact absurd h (hnot _)

/-- The names of a list are its pieces, unless it is blank. -/
theorem mem_parts_iff {inner part : List Char} :
    part ∈ parts inner ↔ ¬ (∀ c ∈ inner, Text.isBlank c) ∧ IsPiece inner part := by
  unfold parts
  by_cases hblank : ∀ c ∈ inner, Text.isBlank c
  · rw [if_pos (List.all_eq_true.mpr hblank)]
    constructor
    · intro h
      cases h
    · rintro ⟨hnot, -⟩
      exact absurd hblank hnot
  · rw [if_neg fun hall => hblank (List.all_eq_true.mp hall), mem_splitTopLevel_iff]
    exact (and_iff_right hblank).symm

/-- A text is read as a method descriptor exactly if it stands in parentheses and no name in
it is blank, and then the parameters are the types of the names. -/
theorem parse_eq_ok_iff {text : String} {m : MethodDescriptor} :
    parse text = .ok m ↔
      ∃ inner, Text.trimChars text.toList = '(' :: inner ++ [')'] ∧
        (∀ part ∈ parts inner, ¬ ∀ c ∈ part, Text.isBlank c) ∧
        m = ⟨(parts inner).map fun part => .field (TypeName.fieldType part 0), none⟩ := by
  have hany : ∀ inner, (parts inner).any (·.all Text.isBlank) = true ↔
      ¬ ∀ part ∈ parts inner, ¬ ∀ c ∈ part, Text.isBlank c := by
    intro inner
    simp
  unfold parse
  simp only [← inner?_eq_some_iff]
  cases hinner : inner? text.toList with
  | none => simp
  | some inner =>
    simp only [Option.some.injEq, exists_eq_left']
    by_cases hblank : (parts inner).any (·.all Text.isBlank)
    · rw [if_pos hblank]
      constructor
      · intro h
        cases h
      · rintro ⟨hparts, -⟩
        exact absurd hparts ((hany inner).mp hblank)
    · rw [if_neg hblank]
      have hparts : ∀ part ∈ parts inner, ¬ ∀ c ∈ part, Text.isBlank c := by
        by_contra hnot
        exact hblank ((hany inner).mpr hnot)
      constructor
      · intro h
        exact ⟨hparts, (Except.ok.inj h).symm⟩
      · rintro ⟨-, rfl⟩
        rfl

end ArgumentList

theorem sourceArguments_eq_ok_iff {text descriptor : String} :
    sourceArguments text = .ok descriptor ↔
      ∃ m, ArgumentList.parse text = .ok m ∧ m.render = descriptor := by
  unfold sourceArguments
  cases ArgumentList.parse text with
  | error fault => simp [Except.map]
  | ok m => simp [Except.map]

/-! ## Reported types -/

/-- A type is reported under a name: as its qualified name, or as its simple name when there is
no qualified one. All its dimensions are in the name. -/
inductive HostType.HasName (name : String) : HostType → Prop where
  | qualified (simple : Option String) : HasName name (.named (some name) simple 0)
  | simple {fqn : Option String} (unnamed : ∀ text ∈ fqn, Text.trim text = "") :
    HasName name (.named fqn (some name) 0)

namespace HostType

theorem HasName.exists_chosenName? {name : String} {t : HostType} (h : t.HasName name)
    (hne : Text.trim name ≠ "") :
    ∃ fqn simple, t = .named fqn simple 0 ∧ chosenName? fqn simple = some (Text.trim name) := by
  cases h with
  | qualified simple => exact ⟨_, _, rfl, by simp [chosenName?, hne]⟩
  | @simple fqn unnamed =>
    refine ⟨_, _, rfl, ?_⟩
    cases fqn with
    | none => simp [chosenName?, hne]
    | some text => simp [chosenName?, hne, unnamed text rfl]

/-- The descriptor of a type that is reported under a name is that of the name, unless the name
is blank or `void`. -/
theorem HasName.descriptor_eq {name : String} {t : HostType} (h : t.HasName name)
    (hblank : ¬ ∀ c ∈ name.toList, Text.isBlank c) (hvoid : Text.trim name ≠ "void") :
    t.descriptor = .field (TypeName.fieldType name.toList 0) := by
  have hne : Text.trim name ≠ "" := by
    intro hempty
    exact hblank (Text.trimChars_eq_nil_iff.mp (String.ofList_inj.mp hempty))
  obtain ⟨fqn, simple, rfl, hchosen⟩ := h.exists_chosenName? hne
  -- blank characters around the name are taken away on both ways
  rw [descriptor, hchosen, Option.getD_some, if_neg fun hboth => hvoid hboth.1, Text.trim,
    String.toList_ofList, TypeName.fieldType_trimChars]

theorem map_descriptor_of_hasName {names : List String} {types : List HostType}
    (h : List.Forall₂ (fun name t => HasName name t) names types)
    (hnames : ∀ name ∈ names,
      (¬ ∀ c ∈ name.toList, Text.isBlank c) ∧ Text.trim name ≠ "void") :
    types.map descriptor = names.map fun name => .field (TypeName.fieldType name.toList 0) := by
  induction h with
  | nil => rfl
  | cons hname _ ih =>
    rw [List.forall_mem_cons] at hnames
    obtain ⟨⟨hblank, hvoid⟩, hrest⟩ := hnames
    rw [List.map_cons, List.map_cons, hname.descriptor_eq hblank hvoid, ih hrest]

end HostType

/-! ## Main result -/

/-- **Exactly the well-formed lists are accepted, and read as types are reported.** A text is an
argument list exactly if it stands in parentheses, with blank characters around, and what is in
the parentheses is blank or has no blank piece. The descriptor of a written list of names is that
of parameters with the types reported under these names; without names it is `()`. -/
theorem argument_lists_agree_with_reported_types (text : String) :
    ((∃ descriptor, sourceArguments text = .ok descriptor) ↔
      ∃ inner, Text.trimChars text.toList = '(' :: inner ++ [')'] ∧
        ((∀ c ∈ inner, Text.isBlank c) ∨
          ∀ piece, ArgumentList.IsPiece inner piece → ¬ ∀ c ∈ piece, Text.isBlank c)) ∧
    (∀ (names : List String) (types : List HostType), ArgumentList.Writes names text →
      (∀ name ∈ names, ArgumentList.IsListable name.toList ∧ Text.trim name ≠ "void") →
      List.Forall₂ (fun name t => HostType.HasName name t) names types →
      sourceArguments text = .ok (parameterDescriptor types)) ∧
    parameterDescriptor [] = "()" := by
  refine ⟨?_, ?_, rfl⟩
  · simp only [sourceArguments_eq_ok_iff, ArgumentList.parse_eq_ok_iff]
    constructor
    · rintro ⟨_, m, ⟨inner, htrim, hparts, -⟩, -⟩
      refine ⟨inner, htrim, ?_⟩
      by_cases hblank : ∀ c ∈ inner, Text.isBlank c
      · exact .inl hblank
      · right
        intro piece hpiece
        exact hparts piece (ArgumentList.mem_parts_iff.mpr ⟨hblank, hpiece⟩)
    · rintro ⟨inner, htrim, haccepted⟩
      refine ⟨_, _, ⟨inner, htrim, ?_, rfl⟩, rfl⟩
      intro part hpart
      obtain ⟨hblank, hpiece⟩ := ArgumentList.mem_parts_iff.mp hpart
      rcases haccepted with hall | hpieces
      · exact absurd hall hblank
      · exact hpieces part hpiece
  · intro names types hwrites hnames htypes
    have hdescriptors := HostType.map_descriptor_of_hasName htypes fun name hname =>
      ⟨(hnames name hname).1.notBlank, (hnames name hname).2⟩
    rw [sourceArguments_eq_ok_iff]
    refine ⟨_, ArgumentList.parse_of_writes hwrites fun name hname => (hnames name hname).1, ?_⟩
    rw [parameterDescriptor, MethodDescriptor.ofHost, hdescriptors]
    rfl

/-- A list with blank characters around all names, a comma in type arguments, and both kinds of
array markers. -/
def variadicList : String :=
  "\t( Map<K, V>[] ,int...)\n"

/-- The types of `variadicList`, one of them reported under its simple name. -/
def variadicTypes : List HostType :=
  [.named (some "Map<K, V>[]") none 0, .named (some " ") (some "int...") 0]

/-- The list is accepted, and read as its types are reported. -/
theorem argument_lists_agree_of_variadicList :
    sourceArguments variadicList = .ok (parameterDescriptor variadicTypes) ∧
      parameterDescriptor variadicTypes = "([LMap;[I)" := by
  have hwrites : ArgumentList.Writes ["Map<K, V>[]", "int..."] variadicList :=
    ⟨['\t'], " Map<K, V>[] ,int...".toList, ['\n'], List.forall_mem_singleton.mpr rfl,
      List.forall_mem_singleton.mpr rfl,
      .cons ⟨[' '], [' '], List.forall_mem_singleton.mpr rfl, List.forall_mem_singleton.mpr rfl,
        rfl⟩
        (.one ⟨[], [], by simp, by simp, rfl⟩), rfl⟩
  have htypes : List.Forall₂ (fun name t => HostType.HasName name t)
      ["Map<K, V>[]", "int..."] variadicTypes :=
    .cons (.qualified none) (.cons (.simple (by decide)) .nil)
  refine ⟨?_, by decide⟩
  exact (argument_lists_agree_with_reported_types variadicList).2.1 _ _ hwrites (by decide) htypes

end DeprecatedApi
