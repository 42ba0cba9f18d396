import DeprecatedApi.Proofs.NameableTypes

/-!
# Class names and their descriptors

Wrapping writes the dots of a class name as slashes and puts `L` and `;` around it; unwrapping
takes them off and writes the slashes as dots. Each of the two loses something: unwrapping cannot
tell a slash that stood in the name from a dot, and wrapping cannot tell a dot that stood in the
path from a slash. Nothing else is lost, whatever else the name holds, also an `L` or a `;`.

* `dottedName?_eq_some_iff`: which texts are unwrapped, and to what.
* `dottedName?_objectDescriptor_iff`: which names are unwrapped again once they are wrapped.
* `objectDescriptor_dotted_iff`: which descriptors are wrapped again once they are unwrapped.
* `HostType.render_of_class`: the descriptor of a class is its wrapped name.
* `class_names_survive_wrapping`: all of this, up to the types that are reported.
-/

namespace DeprecatedApi

/-! ## Names and paths -/

/-- Exactly the names without slashes are read back from their paths. -/
theorem dotted_slashed_iff {cs : List Char} : dotted (slashed cs) = cs ↔ '/' ∉ cs := by
  constructor
  · intro h
    rw [← h]
    exact not_mem_dotted _
  · exact dotted_slashed

/-- Exactly the paths without dots are written back from their names. -/
theorem slashed_dotted_iff {cs : List Char} : slashed (dotted cs) = cs ↔ '.' ∉ cs := by
  constructor
  · intro h
    rw [← h]
    exact not_mem_slashed _
  · exact slashed_dotted

/-! ## Wrapping and unwrapping -/

/-- A class path between `L` and `;`. -/
def wrapped (path : String) : String :=
  "L" ++ path ++ ";"

theorem toList_wrapped (path : String) : (wrapped path).toList = 'L' :: (path.toList ++ [';']) := by
  rw [wrapped, String.toList_append, String.toList_append]
  rfl

theorem wrapped_inj {path other : String} : wrapped path = wrapped other ↔ path = other := by
  rw [← String.toList_inj, toList_wrapped, toList_wrapped, List.cons_inj_right,
    List.append_left_inj, String.toList_inj]

/-- The descriptor of a name is its path between `L` and `;`. -/
theorem objectDescriptor_eq_wrapped (name : String) :
    objectDescriptor name = wrapped (String.ofList (slashed name.toList)) := by
  rw [← String.toList_inj, toList_wrapped, String.toList_ofList, objectDescriptor,
    String.toList_ofList]
  show 'L' :: (String.ofList (slashed name.toList)).toList ++ [';'] = _
  rw [String.toList_ofList, List.cons_append]

/-- Exactly the texts that stand between `L` and `;`, with something in between, are unwrapped. -/
theorem dottedName?_eq_some_iff {text name : String} :
    dottedName? text = some name ↔
      ∃ path, path ≠ "" ∧ text = wrapped path ∧ name = String.ofList (dotted path.toList) := by
  constructor
  · intro h
    unfold dottedName? at h
    split at h
    · rename_i rest htext
      split at h
      · rename_i hbetween
        obtain ⟨hlast, hne⟩ := hbetween
        refine ⟨String.ofList rest.dropLast, ?_, ?_, ?_⟩
        · intro hempty
          exact hne (String.ofList_inj.mp hempty)
        · rw [← String.toList_inj, toList_wrapped, String.toList_ofList,
            List.dropLast_append_getLast? ';' hlast, htext]
        · rw [String.toList_ofList]
          exact (Option.some.inj h).symm
      · cases h
    · cases h
  · rintro ⟨path, hne, rfl, rfl⟩
    have hpath : path.toList ≠ [] := fun hnil => hne (String.toList_eq_nil_iff.mp hnil)
    simp [dottedName?, toList_wrapped, hpath]

/-- A name is unwrapped again once it is wrapped exactly if there is something to wrap, and it
has no slashes. -/
theorem dottedName?_objectDescriptor_iff {name : String} :
    dottedName? (objectDescriptor name) = some name ↔ name ≠ "" ∧ '/' ∉ name.toList := by
  have hback : String.ofList (dotted (slashed name.toList)) = name ↔ '/' ∉ name.toList := by
    rw [← String.toList_inj, String.toList_ofList, dotted_slashed_iff]
  have hempty : String.ofList (slashed name.toList) = "" ↔ name = "" := by
    rw [← String.toList_inj, String.toList_ofList, ← String.toList_inj]
    exact List.map_eq_nil_iff
  rw [dottedName?_eq_some_iff, objectDescriptor_eq_wrapped]
  constructor
  · rintro ⟨path, hne, hsame, hname⟩
    rw [wrapped_inj] at hsame
    subst hsame
    rw [String.toList_ofList] at hname
    exact ⟨fun hnone => hne (hempty.mpr hnone), hback.mp hname.symm⟩
  · rintro ⟨hne, hslash⟩
    refine ⟨_, fun hnone => hne (hempty.mp hnone), rfl, ?_⟩
    rw [String.toList_ofList, hback.mpr hslash]

/-- A path is wrapped again once it is unwrapped exactly if it has no dots. -/
theorem objectDescriptor_dotted_iff {path : String} :
    objectDescriptor (String.ofList (dotted path.toList)) = wrapped path ↔ '.' ∉ path.toList := by
  rw [objectDescriptor_eq_wrapped, wrapped_inj, ← String.toList_inj, String.toList_ofList,
    String.toList_ofList, slashed_dotted_iff]

/-! ## Reported types -/

/-- The descriptor of a type with the bare name of a class is the wrapped name. -/
theorem HostType.render_of_class {n : String} (h : TypeName.IsBare n.toList)
    (hprimitive : ∀ p : Primitive, n ≠ p.name) (hvoid : n ≠ "void") (name : Option String) :
    (HostType.named (some n) name 0).descriptor.render = objectDescriptor n := by
  have hnone : Primitive.ofName? n = none := by
    rw [Option.eq_none_iff_forall_ne_some]
    intro p hp
    exact hprimitive p (Primitive.name_of_ofName? hp).symm
  rw [descriptor_of_bare h, if_neg fun hboth => hvoid hboth.1,
    TypeName.element_of_ne_nil h.nonempty, String.ofList_toList, hnone]
  rfl

/-! ## Main result -/

/-- **Class names survive wrapping.** A name is read back from its descriptor exactly if it is not
empty and has no slashes. A descriptor that has a name stands between `L` and `;`, and is written
back from the name exactly if there is no dot in between. So a name of a class without markers,
type arguments and slashes is read back from the descriptor of the type that is reported under
it. -/
theorem class_names_survive_wrapping :
    (∀ name, dottedName? (objectDescriptor name) = some name ↔ name ≠ "" ∧ '/' ∉ name.toList) ∧
    (∀ text name, dottedName? text = some name → ∃ path, text = "L" ++ path ++ ";" ∧
      (objectDescriptor name = text ↔ '.' ∉ path.toList)) ∧
    ∀ (n : String) (name : Option String), TypeName.IsBare n.toList → '/' ∉ n.toList →
      (∀ p : Primitive, n ≠ p.name) → n ≠ "void" →
      dottedName? (HostType.named (some n) name 0).descriptor.render = some n := by
  refine ⟨fun name => dottedName?_objectDescriptor_iff, ?_, ?_⟩
  · intro text name h
    obtain ⟨path, -, rfl, rfl⟩ := dottedName?_eq_some_iff.mp h
    exact ⟨path, rfl, objectDescriptor_dotted_iff⟩
  · intro n name hbare hslash hprimitive hvoid
    have hne : n ≠ "" := fun hempty => hbare.nonempty (String.toList_eq_nil_iff.mpr hempty)
    rw [HostType.render_of_class hbare hprimitive hvoid]
    exact dottedName?_objectDescriptor_iff.mpr ⟨hne, hslash⟩

/-- A name that holds what is put around names is read back from its descriptor; a descriptor
with a dot has a name, but is not written back from it. -/
theorem class_names_survive_of_odd_names :
    dottedName? "La.b;" = some "a.b" ∧
    (∃ path, "La.b;" = "L" ++ path ++ ";" ∧
      (objectDescriptor "a.b" = "La.b;" ↔ '.' ∉ path.toList)) ∧
    dottedName? (HostType.named (some "L.a;b;") (some "int") 0).descriptor.render
      = some "L.a;b;" := by
  have hname : dottedName? "La.b;" = some "a.b" := by
    decide
  have hbare : TypeName.IsBare "L.a;b;".toList := by
    constructor <;> decide
  have hprimitive : ∀ p : Primitive, "L.a;b;" ≠ p.name := by
    intro p
    cases p <;> decide
  exact ⟨hname, class_names_survive_wrapping.2.1 _ _ hname,
    class_names_survive_wrapping.2.2 _ _ hbare (by decide) hprimitive (by decide)⟩

end DeprecatedApi
