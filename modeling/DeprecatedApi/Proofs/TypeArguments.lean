import DeprecatedApi.Proofs.ArgumentLists
import DeprecatedApi.Proofs.NameableTypes

/-!
# Erasure of type arguments

A qualified type name has segments with dots between them, and any segment may have type
arguments, as in `Outer<T>.Inner<U>[]`. Erasure is a cut at the first `<`: it takes away the
type arguments of the last segment, but where an enclosing segment has some, all segments
behind it are lost with them.

* `TypeName.Qualified`: names with segments, type arguments and array markers.
* `TypeName.Qualified.withoutArguments`: the name with all type arguments deleted.
* `TypeName.Qualified.cut`: the name through the first segment with type arguments.
* `TypeName.Qualified.fieldType_chars`: what such a name denotes.
* `TypeName.nameDescriptor_eq_withoutArguments_iff`: which names are erased as they should be.
-/

namespace DeprecatedApi

namespace TypeName

/-- Stripping stops at a character that belongs to no marker. -/
theorem stripMarkers_cons {c : Char} (hblank : ¬ Text.isBlank c) (hbracket : c ≠ ']')
    (hdot : c ≠ '.') (rest : List Char) : stripMarkers (c :: rest) = (0, c :: rest) := by
  generalize hcs : c :: rest = cs
  fun_cases stripMarkers cs with
  | case1 rest' =>
    cases hcs
    exact absurd rfl hbracket
  | case2 rest' =>
    cases hcs
    exact absurd rfl hdot
  | case3 c' rest' _ _ hblank' =>
    cases hcs
    exact absurd hblank' hblank
  | case4 c' rest' _ _ _ => rfl
  | case5 => rfl

/-! ## Qualified names -/

/-- Whether a character may stand in a segment of a name: it is not blank, and not one that
names are put together with. -/
def isSegmentChar (c : Char) : Bool :=
  !Text.isBlank c && !"<>.,[]();".toList.contains c

theorem isSegmentChar_iff {c : Char} :
    isSegmentChar c ↔ ¬ Text.isBlank c ∧ c ∉ "<>.,[]();".toList := by
  simp [isSegmentChar]

/-- A segment of a qualified name, and the type arguments behind it, if there are any. -/
structure Segment where
  name : List Char
  arguments : List Char
  nonempty : name ≠ []
  plain : ∀ c ∈ name, isSegmentChar c
  bracketed : arguments = [] ∨
    ∃ inner, arguments = '<' :: inner ++ ['>'] ∧ ArgumentList.BalancedAngles inner

/-- An array marker at the end of a name. -/
inductive Marker where
  | brackets
  | dots
  deriving DecidableEq, Repr

/-- The text of a marker. -/
def Marker.chars : Marker → List Char
  | .brackets => ['[', ']']
  | .dots => ['.', '.', '.']

/-- A marker at the end of a name is taken off and counted. -/
theorem stripMarkers_marker (marker : Marker) (rest : List Char) :
    stripMarkers (marker.chars.reverse ++ rest) = addMarker (stripMarkers rest) := by
  cases marker <;> rfl

/-- A qualified name: its last segment, the segments that enclose it, and array markers. -/
structure Qualified where
  outer : List Segment
  last : Segment
  markers : List Marker

namespace Segment

/-- The text of a segment. -/
def chars (s : Segment) : List Char :=
  s.name ++ s.arguments

/-- A segment without its type arguments. -/
def bare (s : Segment) : Segment :=
  { s with arguments := [], bracketed := .inl rfl }

@[simp] theorem chars_bare (s : Segment) : s.bare.chars = s.name :=
  List.append_nil _

theorem chars_ne_nil (s : Segment) : s.chars ≠ [] :=
  List.append_ne_nil_of_left_ne_nil s.nonempty _

/-- The text of a segment begins with an ordinary character. -/
theorem not_blank_of_head? {s : Segment} {c : Char} (h : s.chars.head? = some c) :
    ¬ Text.isBlank c := by
  obtain ⟨first, rest, hname⟩ := List.exists_cons_of_ne_nil s.nonempty
  rw [chars, hname] at h
  cases h
  exact (isSegmentChar_iff.mp (s.plain c (by simp [hname]))).1

/-- The text of a segment ends with an ordinary character or with `>`, and so not with what
could belong to a marker. -/
theorem ends_of_getLast? {s : Segment} {c : Char} (h : s.chars.getLast? = some c) :
    ¬ Text.isBlank c ∧ c ≠ ']' ∧ c ≠ '.' := by
  rcases s.bracketed with hnone | ⟨inner, hsome, -⟩
  · rw [chars, hnone, List.append_nil] at h
    obtain ⟨hblank, hmarks⟩ := isSegmentChar_iff.mp (s.plain c (List.mem_of_getLast? h))
    refine ⟨hblank, ?_, ?_⟩
    · rintro rfl
      exact hmarks (by decide)
    · rintro rfl
      exact hmarks (by decide)
  · rw [chars, hsome, ← List.append_assoc, List.getLast?_concat] at h
    cases h
    decide

/-- The first `<` behind a segment is that of its type arguments, if it has some. -/
theorem takeWhile_chars_append (s : Segment) (rest : List Char) :
    (s.chars ++ rest).takeWhile (· != '<')
      = if s.arguments = [] then s.name ++ rest.takeWhile (· != '<') else s.name := by
  have hname : ∀ c ∈ s.name, c != '<' := by
    intro c hc
    have hmarks := (isSegmentChar_iff.mp (s.plain c hc)).2
    have hne : c ≠ '<' := by
      rintro rfl
      exact hmarks (by decide)
    simpa using hne
  rw [chars, List.append_assoc, List.takeWhile_append_of_pos hname]
  split
  · rename_i hnone
    rw [hnone, List.nil_append]
  · rename_i hne
    obtain ⟨inner, hsome, -⟩ := s.bracketed.resolve_left hne
    rw [hsome]
    simp

end Segment

namespace Qualified

/-- The text of a name without its markers. -/
def base (q : Qualified) : List Char :=
  q.outer.flatMap (fun s => s.chars ++ ['.']) ++ q.last.chars

/-- The text of a name. -/
def chars (q : Qualified) : List Char :=
  q.base ++ q.markers.flatMap Marker.chars

/-- The text of a name, as a string. -/
def text (q : Qualified) : String :=
  String.ofList q.chars

/-- A name with all type arguments deleted. -/
def withoutArguments (q : Qualified) : Qualified :=
  { q with outer := q.outer.map Segment.bare, last := q.last.bare }

/-- A name through its first segment with type arguments, without them. -/
def cutFrom (last : Segment) (markers : List Marker) : List Segment → Qualified
  | [] => ⟨[], last.bare, markers⟩
  | s :: outer =>
    if s.arguments = [] then ⟨s :: (cutFrom last markers outer).outer,
      (cutFrom last markers outer).last, markers⟩
    else ⟨[], s.bare, markers⟩

@[inherit_doc cutFrom]
def cut (q : Qualified) : Qualified :=
  cutFrom q.last q.markers q.outer

theorem base_cons (s : Segment) (outer : List Segment) (last : Segment) (markers : List Marker) :
    base ⟨s :: outer, last, markers⟩ = s.chars ++ '.' :: base ⟨outer, last, markers⟩ := by
  simp [base]

theorem markers_cut (q : Qualified) : q.cut.markers = q.markers := by
  obtain ⟨outer, last, markers⟩ := q
  cases outer with
  | nil => rfl
  | cons s outer =>
    show (cutFrom last markers (s :: outer)).markers = markers
    rw [cutFrom]
    split <;> rfl

/-! ## The ends of a name -/

theorem not_blank_of_head?_base {q : Qualified} {c : Char} (h : q.base.head? = some c) :
    ¬ Text.isBlank c := by
  obtain ⟨outer, last, markers⟩ := q
  have hfirst : ∀ (s : Segment) (rest : List Char),
      (s.chars ++ rest).head? = some c → s.chars.head? = some c := by
    intro s rest hhead
    obtain ⟨d, ds, hchars⟩ := List.exists_cons_of_ne_nil s.chars_ne_nil
    rw [hchars] at hhead ⊢
    exact hhead
  cases outer with
  | nil => exact Segment.not_blank_of_head? h
  | cons s outer =>
    rw [base_cons] at h
    exact Segment.not_blank_of_head? (hfirst s _ h)

theorem ends_of_getLast?_base {q : Qualified} {c : Char} (h : q.base.getLast? = some c) :
    ¬ Text.isBlank c ∧ c ≠ ']' ∧ c ≠ '.' := by
  rw [base, List.getLast?_append_of_ne_nil _ q.last.chars_ne_nil] at h
  exact Segment.ends_of_getLast? h

theorem base_ne_nil (q : Qualified) : q.base ≠ [] :=
  List.append_ne_nil_of_right_ne_nil _ q.last.chars_ne_nil

/-- A name has no blank characters at its ends. -/
theorem hasInkEnds_chars (q : Qualified) : Text.HasInkEnds q.chars := by
  rintro c (hhead | hlast)
  · obtain ⟨d, ds, hbase⟩ := List.exists_cons_of_ne_nil q.base_ne_nil
    refine not_blank_of_head?_base (q := q) ?_
    rw [chars, hbase] at hhead
    rw [hbase]
    exact hhead
  · rw [chars, List.getLast?_append] at hlast
    cases hmarkers : (q.markers.flatMap Marker.chars).getLast? with
    | none =>
      rw [hmarkers] at hlast
      exact (ends_of_getLast?_base hlast).1
    | some d =>
      rw [hmarkers] at hlast
      cases hlast
      obtain ⟨marker, -, hc⟩ := List.mem_flatMap.mp (List.mem_of_getLast? hmarkers)
      have hink : marker.chars.all (!Text.isBlank ·) := by
        cases marker <;> decide
      simpa using List.all_eq_true.mp hink c hc

/-- Exactly the markers are taken off the end of a name. -/
theorem stripMarkers_reverse_chars (q : Qualified) :
    stripMarkers q.chars.reverse = (q.markers.length, q.base.reverse) := by
  obtain ⟨outer, last, markers⟩ := q
  show stripMarkers (base ⟨outer, last, []⟩ ++ markers.flatMap Marker.chars).reverse
    = (markers.length, (base ⟨outer, last, []⟩).reverse)
  induction markers using List.reverseRecOn with
  | nil =>
    -- the last character of the name itself stops the stripping
    obtain ⟨c, rest, hrev⟩ := List.exists_cons_of_ne_nil
      (List.reverse_ne_nil_iff.mpr (base_ne_nil ⟨outer, last, []⟩))
    have hlast : (base ⟨outer, last, []⟩).getLast? = some c := by
      rw [List.getLast?_eq_head?_reverse, hrev, List.head?_cons]
    obtain ⟨hblank, hbracket, hdot⟩ := ends_of_getLast?_base hlast
    rw [List.flatMap_nil, List.append_nil, hrev, stripMarkers_cons hblank hbracket hdot]
    rfl
  | append_singleton markers marker ih =>
    rw [List.flatMap_append, List.flatMap_singleton, ← List.append_assoc, List.reverse_append,
      List.length_append, List.length_singleton]
    rw [stripMarkers_marker, ih]
    rfl

/-! ## The cut -/

/-- The first `<` of a name stands behind its first segment with type arguments. -/
theorem takeWhile_base (q : Qualified) : q.base.takeWhile (· != '<') = q.cut.base := by
  obtain ⟨outer, last, markers⟩ := q
  show (base ⟨outer, last, markers⟩).takeWhile (· != '<') = (cutFrom last markers outer).base
  induction outer with
  | nil =>
    have hlast := last.takeWhile_chars_append []
    rw [List.append_nil, List.takeWhile_nil, List.append_nil, ite_self] at hlast
    show last.chars.takeWhile (· != '<') = last.bare.chars
    rw [hlast, Segment.chars_bare]
  | cons s outer ih =>
    rw [base_cons, Segment.takeWhile_chars_append, cutFrom]
    split
    · rename_i hnone
      have hdot : ('.' :: base ⟨outer, last, markers⟩).takeWhile (· != '<')
          = '.' :: (cutFrom last markers outer).base := by
        rw [List.takeWhile_cons_of_pos (by decide), ih]
      rw [hdot, base_cons, Segment.chars, hnone, List.append_nil]
      rfl
    · exact (Segment.chars_bare s).symm

/-- What a qualified name denotes: its markers are counted, and the element is what the cut
leaves. -/
theorem fieldType_chars (q : Qualified) (extra : Nat) :
    fieldType q.chars extra = ⟨extra + q.markers.length, element q.cut.base⟩ := by
  have htrim := q.hasInkEnds_chars.trimChars_eq
  have hstrip := q.stripMarkers_reverse_chars
  have hcount : markerCount q.chars = q.markers.length := by
    rw [markerCount, htrim, hstrip]
  have hwithout : withoutMarkers q.chars = q.base := by
    rw [withoutMarkers, htrim, hstrip, List.reverse_reverse]
  have hend : Text.trimEnd q.cut.base = q.cut.base :=
    Text.trimEnd_of_getLast? fun c hc => (ends_of_getLast?_base hc).1
  rw [fieldType, hcount, elementName, hwithout, erased, takeWhile_base, hend]

/-- A name whose enclosing segments have no type arguments is cut behind its last segment. -/
theorem cut_base_of_forall {q : Qualified} (h : ∀ s ∈ q.outer, s.arguments = []) :
    q.cut.base = q.withoutArguments.base := by
  obtain ⟨outer, last, markers⟩ := q
  show (cutFrom last markers outer).base = base ⟨outer.map Segment.bare, last.bare, markers⟩
  induction outer with
  | nil => rfl
  | cons s outer ih =>
    rw [List.forall_mem_cons] at h
    rw [cutFrom, if_pos h.1, base_cons, List.map_cons, base_cons, ← ih h.2, Segment.chars_bare,
      Segment.chars, h.1, List.append_nil]
    rfl

/-- A name with type arguments on an enclosing segment loses all that stands behind them. -/
theorem length_cut_lt {q : Qualified} (h : ¬ ∀ s ∈ q.outer, s.arguments = []) :
    q.cut.base.length < q.withoutArguments.base.length := by
  obtain ⟨outer, last, markers⟩ := q
  show (cutFrom last markers outer).base.length
    < (base ⟨outer.map Segment.bare, last.bare, markers⟩).length
  induction outer with
  | nil => exact absurd (List.forall_mem_nil _) h
  | cons s outer ih =>
    rw [cutFrom, List.map_cons, base_cons, Segment.chars_bare, List.length_append,
      List.length_cons]
    split
    · rename_i hnone
      have hrest : ¬ ∀ s ∈ outer, s.arguments = [] := by
        intro hall
        exact h (List.forall_mem_cons.mpr ⟨hnone, hall⟩)
      have hlength := ih hrest
      rw [base_cons, List.length_append, List.length_cons, Segment.chars, hnone, List.append_nil]
      show s.name.length + ((cutFrom last markers outer).base.length + 1) < _
      omega
    · show s.bare.chars.length < _
      rw [Segment.chars_bare]
      omega

/-- Deleting the type arguments of a name leaves nothing to cut. -/
theorem cut_base_withoutArguments (q : Qualified) :
    q.withoutArguments.cut.base = q.withoutArguments.base := by
  rw [cut_base_of_forall]
  · simp only [withoutArguments, base, List.flatMap_map, Segment.chars_bare]
    rfl
  · intro s hs
    obtain ⟨t, -, rfl⟩ := List.mem_map.mp hs
    rfl

theorem cut_cut_base (q : Qualified) : q.cut.cut.base = q.cut.base := by
  rw [← takeWhile_base, ← takeWhile_base, List.takeWhile_idem]

theorem dot_mem_base_withoutArguments {q : Qualified} (h : ¬ ∀ s ∈ q.outer, s.arguments = []) :
    '.' ∈ q.withoutArguments.base := by
  obtain ⟨outer, last, markers⟩ := q
  cases outer with
  | nil => exact absurd (List.forall_mem_nil _) h
  | cons s outer =>
    show '.' ∈ base ⟨s.bare :: outer.map Segment.bare, last.bare, markers⟩
    rw [base_cons]
    simp

end Qualified

/-! ## Lengths of elements -/

theorem length_chars_element_le {name : List Char} (h : name ≠ []) :
    (element name).chars.length ≤ name.length + 2 := by
  rw [element_of_ne_nil h]
  split
  · show 1 ≤ name.length + 2
    omega
  · simp [Element.ofDotted, Element.chars, slashed]

/-- A name with a dot is that of a class, and its text is as long as the name between the two
characters around it. -/
theorem length_chars_element_of_mem {name : List Char} (h : '.' ∈ name) :
    (element name).chars.length = name.length + 2 := by
  have hprimitive : Primitive.ofName? (String.ofList name) = none := by
    rw [Option.eq_none_iff_forall_ne_some]
    intro p hp
    have hname : p.name.toList = name := by
      rw [Primitive.name_of_ofName? hp, String.toList_ofList]
    have hdot : '.' ∉ p.name.toList := by cases p <;> decide
    exact hdot (hname ▸ h)
  rw [element_of_ne_nil (List.ne_nil_of_mem h), hprimitive]
  simp [Element.ofDotted, Element.chars, slashed]

/-! ## Main result -/

/-- **Which type arguments are erased.** A qualified name has the descriptor of the name through
its first segment with type arguments. That is the descriptor of the name with all type arguments
deleted exactly if no enclosing segment has any. -/
theorem nameDescriptor_eq_withoutArguments_iff (q : Qualified) (extra : Nat) :
    nameDescriptor q.text extra = nameDescriptor q.cut.text extra ∧
    (nameDescriptor q.text extra = nameDescriptor q.withoutArguments.text extra ↔
      ∀ s ∈ q.outer, s.arguments = []) := by
  have hfull : fieldType q.text.toList extra
      = ⟨extra + q.markers.length, element q.cut.base⟩ := by
    rw [Qualified.text, String.toList_ofList, q.fieldType_chars]
  have hcut : fieldType q.cut.text.toList extra
      = ⟨extra + q.markers.length, element q.cut.base⟩ := by
    rw [Qualified.text, String.toList_ofList, q.cut.fieldType_chars, q.cut_cut_base,
      q.markers_cut]
  have hplain : fieldType q.withoutArguments.text.toList extra
      = ⟨extra + q.markers.length, element q.withoutArguments.base⟩ := by
    rw [Qualified.text, String.toList_ofList, q.withoutArguments.fieldType_chars,
      q.cut_base_withoutArguments]
    rfl
  refine ⟨by rw [nameDescriptor, nameDescriptor, hfull, hcut], ?_⟩
  rw [nameDescriptor, nameDescriptor, hfull, hplain]
  constructor
  · intro h
    by_contra hnot
    -- the longer name is that of a class, and so has the longer text
    have hchars : (element q.cut.base).chars = (element q.withoutArguments.base).chars :=
      List.append_cancel_left (String.ofList_inj.mp h)
    have hle := length_chars_element_le q.cut.base_ne_nil
    have hlength := length_chars_element_of_mem (Qualified.dot_mem_base_withoutArguments hnot)
    have hlt := Qualified.length_cut_lt hnot
    rw [hchars] at hle
    omega
  · intro h
    rw [Qualified.cut_base_of_forall h]

/-- The name `Outer<T>.Inner`. -/
def innerOfGeneric : Qualified where
  outer := [⟨"Outer".toList, "<T>".toList, by decide, List.all_eq_true.mp (by decide),
    .inr ⟨['T'], rfl, by decide⟩⟩]
  last := ⟨"Inner".toList, [], by decide, List.all_eq_true.mp (by decide), .inl rfl⟩
  markers := []

/-- An inner class of a generic one is taken for the generic class, as a reported type and in an
argument list. -/
theorem innerOfGeneric_taken_for_outer :
    innerOfGeneric.text = "Outer<T>.Inner" ∧
    innerOfGeneric.withoutArguments.text = "Outer.Inner" ∧
    nameDescriptor innerOfGeneric.text 0 ≠ nameDescriptor innerOfGeneric.withoutArguments.text 0 ∧
    nameDescriptor innerOfGeneric.text 0 = nameDescriptor "Outer<T>" 0 ∧
    (HostType.named (some innerOfGeneric.text) none 0).descriptor
      = (HostType.named (some "Outer<T>") none 0).descriptor ∧
    sourceArguments ("(" ++ innerOfGeneric.text ++ ")") = sourceArguments "(Outer<T>)" := by
  decide +kernel

end TypeName

end DeprecatedApi
