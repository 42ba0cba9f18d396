import DeprecatedApi.Proofs.TypeNames
import Mathlib.Data.List.Forall2

/-!
# Unique decoding of descriptors

Descriptors follow each other without a separator, and still a text of several
descriptors is that of one list only: no descriptor is the beginning of another one.
The only texts that could spoil this are class paths that hold a `;`.

* `TypeDescriptor.path`: the class path in a descriptor.
* `HostType.Avoids`: the names of a reported type do not hold a character.
* `TypeDescriptor.chars_append_inj`: the first descriptor of a text is determined.
* `MethodDescriptor.chars_inj`: so are the parameters and the result of a method.
* `methodDescriptor_eq_iff`: different overloads have different descriptors.
-/

namespace DeprecatedApi

/-! ## One descriptor and what follows it -/

/-- The path of the class that an element is, if it is one. -/
def Element.path : Element → List Char
  | .primitive _ => []
  | .object path => path.toList

/-- The path of the class in a descriptor, if there is one. -/
def TypeDescriptor.path : TypeDescriptor → List Char
  | .void => []
  | .field type => type.element.path

theorem Primitive.code_inj {p q : Primitive} (h : p.code = q.code) : p = q := by
  have hp := ofCode?_code p
  rw [h, ofCode?_code] at hp
  exact (Option.some.inj hp).symm

theorem Primitive.code_ne (p : Primitive) :
    p.code ≠ 'L' ∧ p.code ≠ '[' ∧ p.code ≠ 'V' ∧ p.code ≠ ')' := by
  cases p <;> decide

/-- A text up to the first mark is determined by what it is the beginning of. -/
theorem append_mark_inj {mark : Char} {as bs xs ys : List Char} (ha : mark ∉ as) (hb : mark ∉ bs)
    (h : as ++ mark :: xs = bs ++ mark :: ys) : as = bs ∧ xs = ys := by
  induction as generalizing bs with
  | nil =>
    cases bs with
    | nil => exact ⟨rfl, (List.cons.inj h).2⟩
    | cons b bs => exact absurd ((List.cons.inj h).1 ▸ List.mem_cons_self) hb
  | cons a as ih =>
    cases bs with
    | nil => exact absurd ((List.cons.inj h).1 ▸ List.mem_cons_self) ha
    | cons b bs =>
      obtain ⟨rfl, htail⟩ := List.cons.inj h
      obtain ⟨rfl, hrest⟩ := ih (fun hm => ha (List.mem_cons_of_mem _ hm))
        (fun hm => hb (List.mem_cons_of_mem _ hm)) htail
      exact ⟨rfl, hrest⟩

/-- The first element of a text is determined. -/
theorem Element.chars_append_inj {e f : Element} (he : ';' ∉ e.path) (hf : ';' ∉ f.path)
    {xs ys : List Char} (h : e.chars ++ xs = f.chars ++ ys) : e = f ∧ xs = ys := by
  cases e with
  | primitive p =>
    cases f with
    | primitive q =>
      obtain ⟨hcode, hrest⟩ := List.cons.inj h
      exact ⟨congrArg _ (Primitive.code_inj hcode), hrest⟩
    | object path => exact absurd (List.cons.inj h).1 p.code_ne.1
  | object path =>
    cases f with
    | primitive q => exact absurd (List.cons.inj h).1.symm q.code_ne.1
    | object other =>
      -- both paths end at the first semicolon
      have hpath : path.toList ++ ';' :: xs = other.toList ++ ';' :: ys := by
        simpa [chars] using h
      obtain ⟨heq, hrest⟩ := append_mark_inj he hf hpath
      exact ⟨congrArg _ (String.toList_inj.mp heq), hrest⟩

/-- The text of an element begins with a letter that no other part of a method
descriptor begins with. -/
theorem Element.exists_chars_eq (e : Element) :
    ∃ c rest, e.chars = c :: rest ∧ c ≠ '[' ∧ c ≠ 'V' ∧ c ≠ ')' := by
  cases e with
  | primitive p => exact ⟨p.code, [], rfl, p.code_ne.2⟩
  | object path => exact ⟨'L', _, rfl, by decide⟩

/-- The first field type of a text is determined. -/
theorem FieldType.chars_append_inj {s t : FieldType} (hs : ';' ∉ s.element.path)
    (ht : ';' ∉ t.element.path) {xs ys : List Char} (h : s.chars ++ xs = t.chars ++ ys) :
    s = t ∧ xs = ys := by
  obtain ⟨m, e⟩ := s
  obtain ⟨n, f⟩ := t
  simp only [chars, List.append_assoc] at h
  -- one dimension at a time; when one side runs out, so must the other
  induction m generalizing n with
  | zero =>
    cases n with
    | zero =>
      obtain ⟨rfl, hrest⟩ := Element.chars_append_inj hs ht h
      exact ⟨rfl, hrest⟩
    | succ n =>
      obtain ⟨c, rest, hc, hne, -⟩ := e.exists_chars_eq
      rw [hc] at h
      exact absurd (List.cons.inj h).1 hne
  | succ m ih =>
    cases n with
    | zero =>
      obtain ⟨c, rest, hc, hne, -⟩ := f.exists_chars_eq
      rw [hc] at h
      exact absurd (List.cons.inj h).1.symm hne
    | succ n =>
      obtain ⟨heq, hrest⟩ := ih hs n ht (List.cons.inj h).2
      injection heq with hdims helement
      exact ⟨by rw [hdims, helement], hrest⟩

/-- The text of a field type begins neither like `void` nor like the end of parameters. -/
theorem FieldType.exists_chars_eq (t : FieldType) :
    ∃ c rest, t.chars = c :: rest ∧ c ≠ 'V' ∧ c ≠ ')' := by
  obtain ⟨n, e⟩ := t
  cases n with
  | zero =>
    obtain ⟨c, rest, hc, -, hne⟩ := e.exists_chars_eq
    exact ⟨c, rest, by simpa [chars] using hc, hne⟩
  | succ n => exact ⟨'[', _, rfl, by decide⟩

namespace TypeDescriptor

/-- **Prefix code**: the first descriptor of a text is determined. -/
theorem chars_append_inj {s t : TypeDescriptor} (hs : ';' ∉ s.path) (ht : ';' ∉ t.path)
    {xs ys : List Char} (h : s.chars ++ xs = t.chars ++ ys) : s = t ∧ xs = ys := by
  cases s with
  | void =>
    cases t with
    | void => exact ⟨rfl, (List.cons.inj h).2⟩
    | field t =>
      obtain ⟨c, rest, hc, hne, -⟩ := t.exists_chars_eq
      rw [chars, chars, hc] at h
      exact absurd (List.cons.inj h).1.symm hne
  | field s =>
    cases t with
    | void =>
      obtain ⟨c, rest, hc, hne, -⟩ := s.exists_chars_eq
      rw [chars, chars, hc] at h
      exact absurd (List.cons.inj h).1 hne
    | field t =>
      obtain ⟨rfl, hrest⟩ := FieldType.chars_append_inj hs ht h
      exact ⟨rfl, hrest⟩

theorem exists_chars_eq (t : TypeDescriptor) : ∃ c rest, t.chars = c :: rest ∧ c ≠ ')' := by
  cases t with
  | void => exact ⟨'V', [], rfl, by decide⟩
  | field t =>
    obtain ⟨c, rest, hc, -, hne⟩ := t.exists_chars_eq
    exact ⟨c, rest, hc, hne⟩

theorem chars_inj {s t : TypeDescriptor} (hs : ';' ∉ s.path) (ht : ';' ∉ t.path)
    (h : s.chars = t.chars) : s = t :=
  (chars_append_inj hs ht (congrArg (· ++ []) h)).1

theorem render_eq_iff {s t : TypeDescriptor} (hs : ';' ∉ s.path) (ht : ';' ∉ t.path) :
    s.render = t.render ↔ s = t :=
  ⟨fun h => chars_inj hs ht (String.ofList_inj.mp h), congrArg render⟩

/-! ## Lists of descriptors -/

/-- A list of descriptors is determined by its text up to the closing parenthesis. -/
theorem flatMap_chars_inj {ss ts : List TypeDescriptor} (hs : ∀ s ∈ ss, ';' ∉ s.path)
    (ht : ∀ t ∈ ts, ';' ∉ t.path) {xs ys : List Char}
    (h : ss.flatMap chars ++ ')' :: xs = ts.flatMap chars ++ ')' :: ys) :
    ss = ts ∧ xs = ys := by
  induction ss generalizing ts with
  | nil =>
    cases ts with
    | nil => exact ⟨rfl, (List.cons.inj h).2⟩
    | cons t ts =>
      -- no descriptor begins with a closing parenthesis
      obtain ⟨c, rest, hc, hne⟩ := t.exists_chars_eq
      rw [List.flatMap_cons, hc] at h
      exact absurd (List.cons.inj h).1.symm hne
  | cons s ss ih =>
    cases ts with
    | nil =>
      obtain ⟨c, rest, hc, hne⟩ := s.exists_chars_eq
      rw [List.flatMap_cons, hc] at h
      exact absurd (List.cons.inj h).1 hne
    | cons t ts =>
      rw [List.forall_mem_cons] at hs ht
      rw [List.flatMap_cons, List.flatMap_cons, List.append_assoc, List.append_assoc] at h
      obtain ⟨rfl, hrest⟩ := chars_append_inj hs.1 ht.1 h
      obtain ⟨rfl, hend⟩ := ih hs.2 ht.2 hrest
      exact ⟨rfl, hend⟩

/-- Two lists have the same descriptors if their texts are the same one by one. -/
theorem forall₂_render_iff {α β : Type} {f : α → TypeDescriptor} {g : β → TypeDescriptor}
    {as : List α} {bs : List β} (ha : ∀ a ∈ as, ';' ∉ (f a).path)
    (hb : ∀ b ∈ bs, ';' ∉ (g b).path) :
    List.Forall₂ (fun a b => (f a).render = (g b).render) as bs ↔ as.map f = bs.map g := by
  rw [← List.forall₂_eq_eq_eq, List.forall₂_map_left_iff, List.forall₂_map_right_iff]
  constructor
  · intro h
    induction h with
    | nil => exact .nil
    | cons h _ ih =>
      rw [List.forall_mem_cons] at ha hb
      exact .cons ((render_eq_iff ha.1 hb.1).mp h) (ih ha.2 hb.2)
  · exact fun h => h.imp fun _ _ => congrArg render

end TypeDescriptor

namespace MethodDescriptor

/-- **Unique decoding**: parameters and result of a method are determined by its text. -/
theorem chars_inj {m n : MethodDescriptor} (hm : ∀ t ∈ m.parameters, ';' ∉ t.path)
    (hn : ∀ t ∈ n.parameters, ';' ∉ t.path) (h : m.chars = n.chars) :
    m.parameters = n.parameters ∧ m.resultChars = n.resultChars := by
  have htail : m.parameters.flatMap TypeDescriptor.chars ++ ')' :: m.resultChars
      = n.parameters.flatMap TypeDescriptor.chars ++ ')' :: n.resultChars := by
    simpa [chars, parameterChars] using h
  exact TypeDescriptor.flatMap_chars_inj hm hn htail

end MethodDescriptor

/-! ## Written and reported types -/

/-- The class of all objects has a path that disturbs no descriptor around it. -/
theorem Element.not_mem_anyObject_path {c : Char} (hc : c = ';' ∨ c = ')') :
    c ∉ anyObject.path := by
  show c ∉ "java/lang/Object".toList
  rcases hc with rfl | rfl <;> decide

/-- A class path made from a written name has no characters but those of the element name and
of the class of all objects. -/
theorem TypeName.fieldType_avoids_of_elementName {c : Char} {name : List Char}
    (hc : c ∉ Element.anyObject.path) (h : c ∉ elementName name) (extra : Nat) :
    c ∉ (TypeDescriptor.field (fieldType name extra)).path := by
  show c ∉ (element (elementName name)).path
  by_cases hnil : elementName name = []
  · -- an empty name stands for the class of all objects
    rw [hnil]
    exact hc
  · rw [element_of_ne_nil hnil]
    cases Primitive.ofName? (String.ofList (elementName name)) with
    | some p => simp [Element.path]
    | none =>
      show c ∉ (String.ofList (slashed (elementName name))).toList
      rw [String.toList_ofList]
      intro hmem
      rcases mem_slashed hmem with rfl | hmem
      · exact hc (by decide)
      · exact h hmem

theorem TypeName.fieldType_avoids {c : Char} {name : List Char} (hc : c ∉ Element.anyObject.path)
    (h : c ∉ name) (extra : Nat) : c ∉ (TypeDescriptor.field (fieldType name extra)).path :=
  fieldType_avoids_of_elementName hc (fun hmem => h (elementName_subset name hmem)) extra

namespace HostType

/-- The names that a reported type has. -/
def names : HostType → List String
  | .unknown => []
  | .void => []
  | .named fqn name _ => fqn.toList ++ name.toList

/-- The names of a reported type do not hold a character. -/
def Avoids (c : Char) (t : HostType) : Prop :=
  ∀ name ∈ t.names, c ∉ name.toList

/-- The name that counts is one of the names. -/
theorem exists_of_chosenName? {fqn name : Option String} {chosen : String}
    (h : chosenName? fqn name = some chosen) :
    ∃ given ∈ fqn.toList ++ name.toList, chosen = Text.trim given := by
  have hmem := List.mem_of_find?_eq_some h
  obtain ⟨given, hgiven, htrim⟩ := List.mem_filterMap.mp hmem
  obtain ⟨text, rfl, rfl⟩ := Option.map_eq_some_iff.mp htrim
  refine ⟨text, ?_, rfl⟩
  simpa [eq_comm] using hgiven

/-- The descriptor of a type has no characters but those of its names. -/
theorem descriptor_avoids {c : Char} {t : HostType} (hc : c ∉ Element.anyObject.path)
    (h : t.Avoids c) : c ∉ t.descriptor.path := by
  cases t with
  | unknown => exact hc
  | void => simp [descriptor, TypeDescriptor.path]
  | named fqn name dims =>
    rw [descriptor]
    split
    · simp [TypeDescriptor.path]
    · refine TypeName.fieldType_avoids hc ?_ dims
      cases hchosen : chosenName? fqn name with
      | none => simp
      | some chosen =>
        obtain ⟨given, hgiven, rfl⟩ := exists_of_chosenName? hchosen
        show c ∉ (Text.trim given).toList
        rw [Text.trim, String.toList_ofList]
        exact fun hmem => h given hgiven (Text.trimChars_subset _ hmem)

theorem descriptors_avoid {c : Char} {ts : List HostType} (hc : c ∉ Element.anyObject.path)
    (h : ∀ t ∈ ts, t.Avoids c) : ∀ d ∈ ts.map descriptor, c ∉ d.path := by
  intro d hd
  obtain ⟨t, ht, rfl⟩ := List.mem_map.mp hd
  exact descriptor_avoids hc (h t ht)

end HostType

/-- The descriptor of a type with a bare name: the name tells the element, and `void` under
no dimensions is no value. -/
theorem HostType.descriptor_of_bare {n : String} (h : TypeName.IsBare n.toList)
    (name : Option String) (dims : Nat) :
    (HostType.named (some n) name dims).descriptor
      = if n = "void" ∧ dims = 0 then .void else .field ⟨dims, TypeName.element n.toList⟩ := by
  have htrim : Text.trim n = n := by rw [Text.trim, h.trimmed, String.ofList_toList]
  have hne : n ≠ "" := fun heq => h.nonempty (by rw [heq]; rfl)
  have hchosen : chosenName? (some n) name = some n := by
    simp [chosenName?, htrim, hne]
  rw [descriptor, hchosen, Option.getD_some, TypeName.fieldType_of_bare h]

theorem HostType.descriptor_avoids_of_bare {c : Char} {n : String}
    (hc : c ∉ Element.anyObject.path) (h : TypeName.IsBare n.toList) (hn : c ∉ n.toList)
    (name : Option String) (dims : Nat) :
    c ∉ (HostType.named (some n) name dims).descriptor.path := by
  rw [descriptor_of_bare h, ← TypeName.fieldType_of_bare h]
  split
  · simp [TypeDescriptor.path]
  · exact TypeName.fieldType_avoids hc hn dims

/-- Types with different bare names, or under different numbers of dimensions, are
different. -/
theorem HostType.descriptor_inj_of_bare {m n : String} (hm : TypeName.IsBare m.toList)
    (hn : TypeName.IsBare n.toList) (hm' : '/' ∉ m.toList) (hn' : '/' ∉ n.toList)
    {name other : Option String} {d e : Nat}
    (h : (HostType.named (some m) name d).descriptor
      = (HostType.named (some n) other e).descriptor) : m = n ∧ d = e := by
  rw [descriptor_of_bare hm, descriptor_of_bare hn] at h
  split at h
  · split at h
    · rename_i hvoid hvoid'
      exact ⟨hvoid.1.trans hvoid'.1.symm, hvoid.2.trans hvoid'.2.symm⟩
    · cases h
  · split at h
    · cases h
    · injection h with hfield
      injection hfield with hdims helement
      have hchars := TypeName.element_inj hm.nonempty hn.nonempty hm' hn' helement
      exact ⟨String.toList_inj.mp hchars, hdims⟩

/-! ## Main result -/

/-- **Different overloads never collide.** Two methods have the same descriptor exactly if
they have the same number of parameters, and the descriptors of all parameters and of the
results are the same. Among types with bare names the descriptor tells name and dimensions. -/
theorem methodDescriptor_eq_iff :
    (∀ (ps qs : List HostType) (r s : HostType),
      (∀ p ∈ ps, p.Avoids ';') → (∀ q ∈ qs, q.Avoids ';') → r.Avoids ';' → s.Avoids ';' →
      (methodDescriptor ps r = methodDescriptor qs s ↔
        List.Forall₂ (fun p q => p.descriptor.render = q.descriptor.render) ps qs
          ∧ r.descriptor.render = s.descriptor.render)) ∧
    (∀ (m n : String) (name other : Option String) (d e : Nat),
      TypeName.IsBare m.toList → TypeName.IsBare n.toList →
      '/' ∉ m.toList → '/' ∉ n.toList → ';' ∉ m.toList → ';' ∉ n.toList →
      ((HostType.named (some m) name d).descriptor.render
          = (HostType.named (some n) other e).descriptor.render ↔ m = n ∧ d = e)) := by
  have hobject := Element.not_mem_anyObject_path (.inl rfl : ';' = ';' ∨ ';' = ')')
  constructor
  · intro ps qs r s hp hq hr hs
    have hps := HostType.descriptors_avoid hobject hp
    have hqs := HostType.descriptors_avoid hobject hq
    have hrs := TypeDescriptor.render_eq_iff (HostType.descriptor_avoids hobject hr)
      (HostType.descriptor_avoids hobject hs)
    rw [TypeDescriptor.forall₂_render_iff (fun p h => HostType.descriptor_avoids hobject (hp p h))
      (fun q h => HostType.descriptor_avoids hobject (hq q h))]
    constructor
    · intro h
      obtain ⟨hparameters, hresult⟩ := MethodDescriptor.chars_inj hps hqs (String.ofList_inj.mp h)
      exact ⟨hparameters, congrArg String.ofList hresult⟩
    · rintro ⟨hparameters, hresult⟩
      simp only [methodDescriptor, MethodDescriptor.ofHost, hparameters, Option.map_some,
        hrs.mp hresult]
  · intro m n name other d e hm hn hm' hn' hm'' hn''
    rw [TypeDescriptor.render_eq_iff (HostType.descriptor_avoids_of_bare hobject hm hm'' name d)
      (HostType.descriptor_avoids_of_bare hobject hn hn'' other e)]
    constructor
    · exact HostType.descriptor_inj_of_bare hm hn hm' hn'
    · rintro ⟨rfl, rfl⟩
      rw [HostType.descriptor_of_bare hm, HostType.descriptor_of_bare hm]

/-- An array of `int`, followed by no value, is not an array of the class `I`. -/
theorem methodDescriptor_int_array_ne_class_I :
    methodDescriptor [.named (some "int") none 1, .void] .unknown
        ≠ methodDescriptor [.named none (some "I") 1] .unknown ∧
    (HostType.named (some "int") none 1).descriptor.render
        ≠ (HostType.named (some "I") (some "a;b") 1).descriptor.render := by
  have hint : TypeName.IsBare "int".toList := by
    constructor <;> decide
  have hclass : TypeName.IsBare "I".toList := by
    constructor <;> decide
  refine ⟨fun h => ?_, fun h => ?_⟩
  · have hboth := (methodDescriptor_eq_iff.1 [.named (some "int") none 1, .void]
      [.named none (some "I") 1] .unknown .unknown (by simp [HostType.Avoids, HostType.names])
      (by simp [HostType.Avoids, HostType.names]) (by simp [HostType.Avoids, HostType.names])
      (by simp [HostType.Avoids, HostType.names])).mp h
    exact absurd hboth.1.length_eq (by decide)
  · have hboth := (methodDescriptor_eq_iff.2 "int" "I" none (some "a;b") 1 1 hint hclass
      (by decide) (by decide) (by decide) (by decide)).mp h
    exact absurd hboth.1 (by decide)

end DeprecatedApi
