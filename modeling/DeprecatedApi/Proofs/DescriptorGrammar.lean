import DeprecatedApi.Descriptor.Parser
import DeprecatedApi.Proofs.UniqueDecoding

/-!
# The grammar of descriptors

Reading and writing descriptors are inverse to each other: a text denotes a method
descriptor exactly if it is the text of a well-formed one.

* `Element.IsWellFormed`, `MethodDescriptor.IsWellFormed`: descriptors that can be read.
* `parameterSectionChars?_eq_some_iff`: the parameter section of any text.
* `FieldReader.chars`: the text that a reader has read; each step adds its character.
* `readFields?_eq_some_iff`, `MethodDescriptor.parse?_eq_some_iff`: reading accepts exactly
  what writing produces.
* `MethodDescriptor.parameterSection?_render`, `MethodDescriptor.isParameterOnly_render`: the
  parts of a written descriptor.
-/

namespace DeprecatedApi

/-! ## Well-formed descriptors -/

/-- A class path is not empty, and has no characters that end it. -/
inductive Element.IsWellFormed : Element → Prop where
  | primitive (p : Primitive) : IsWellFormed (.primitive p)
  | object {path : String} (nonempty : path.toList ≠ [])
    (chars : ∀ c ∈ path.toList, isPathChar c) : IsWellFormed (.object path)

/-- A descriptor of one type is well-formed if its class path is. -/
inductive TypeDescriptor.IsWellFormed : TypeDescriptor → Prop where
  | void : IsWellFormed .void
  | field {type : FieldType} (element : type.element.IsWellFormed) : IsWellFormed (.field type)

/-- A method takes values only, and may return none. -/
structure MethodDescriptor.IsWellFormed (m : MethodDescriptor) : Prop where
  parameters : ∀ t ∈ m.parameters, t ≠ .void ∧ t.IsWellFormed
  result : ∀ t ∈ m.result, t.IsWellFormed

theorem isPathChar_iff {c : Char} :
    isPathChar c ↔ c ≠ ';' ∧ c ≠ '(' ∧ c ≠ ')' ∧ c ≠ '[' := by
  simp [isPathChar, and_assoc]

theorem Primitive.code_of_ofCode? {c : Char} {p : Primitive} (h : ofCode? c = some p) :
    p.code = c := by
  have := List.find?_some h
  simpa using this

/-! ## The end of the parameters -/

theorem takeWhile_append_parenthesis {inner : List Char} (h : ')' ∉ inner) (rest : List Char) :
    (inner ++ ')' :: rest).takeWhile (· != ')') = inner := by
  have hall : ∀ c ∈ inner, (c != ')') = true := by
    intro c hc
    have hne : c ≠ ')' := fun heq => h (heq ▸ hc)
    simpa using hne
  rw [List.takeWhile_append_of_pos hall]
  simp

/-- A parameter section ends with the first closing parenthesis of a text. -/
theorem parameterSectionChars?_eq_some_iff {cs part : List Char} :
    parameterSectionChars? cs = some part ↔
      ∃ inner rest, ')' ∉ inner ∧ part = '(' :: inner ++ [')'] ∧ cs = part ++ rest := by
  constructor
  · intro h
    rw [parameterSectionChars?.eq_def] at h
    split at h
    · rename_i behind
      split at h
      · rename_i hmem
        obtain ⟨inner, rest, rfl, hinner⟩ :=
          List.eq_append_cons_of_mem (List.contains_iff_mem.mp hmem)
        rw [takeWhile_append_parenthesis hinner] at h
        obtain rfl : '(' :: inner ++ [')'] = part := Option.some.inj h
        exact ⟨inner, rest, hinner, rfl, by simp⟩
      · cases h
    · cases h
  · rintro ⟨inner, rest, hinner, rfl, rfl⟩
    have hcs : '(' :: inner ++ [')'] ++ rest = '(' :: (inner ++ ')' :: rest) := by simp
    rw [hcs, parameterSectionChars?, if_pos (by simp), takeWhile_append_parenthesis hinner]

/-- A character that no descriptor is put together with is in a descriptor only if it is in
the class path. -/
theorem TypeDescriptor.not_mem_chars {mark : Char} (hmark : mark ∉ "[L;VZBCSIJFD".toList)
    {t : TypeDescriptor} (h : mark ∉ t.path) : mark ∉ t.chars := by
  have hne : ∀ c ∈ "[L;VZBCSIJFD".toList, mark ≠ c := fun c hc heq => hmark (heq ▸ hc)
  cases t with
  | void => simpa [chars] using hne 'V' (by decide)
  | field type =>
    obtain ⟨dims, element⟩ := type
    have hdims : mark ∉ List.replicate dims '[' := fun hmem =>
      hne '[' (by decide) (List.eq_of_mem_replicate hmem)
    have helement : mark ∉ element.chars := by
      cases element with
      | primitive p =>
        have hcode : p.code ∈ "[L;VZBCSIJFD".toList := by cases p <;> decide
        simpa [Element.chars] using hne p.code hcode
      | object path =>
        have hpath : mark ∉ path.toList := h
        simpa [Element.chars, hpath] using ⟨hne 'L' (by decide), hne ';' (by decide)⟩
    simp only [chars, FieldType.chars, List.mem_append, not_or]
    exact ⟨hdims, helement⟩

/-- A descriptor ends in a letter or a semicolon. -/
theorem TypeDescriptor.exists_chars_eq_concat (t : TypeDescriptor) :
    ∃ before last, t.chars = before ++ [last] ∧ last ≠ ')' ∧ ¬ Text.isBlank last := by
  cases t with
  | void => exact ⟨[], 'V', rfl, by decide⟩
  | field type =>
    obtain ⟨dims, element⟩ := type
    cases element with
    | primitive p => exact ⟨_, p.code, rfl, by cases p <;> decide⟩
    | object path =>
      exact ⟨_, ';', (List.append_assoc _ ('L' :: path.toList) [';']).symm, by decide⟩

/-- A well-formed class path holds no closing parenthesis. -/
theorem TypeDescriptor.IsWellFormed.not_mem_path {t : TypeDescriptor} (h : t.IsWellFormed) :
    ')' ∉ t.path := by
  cases h with
  | void => exact List.not_mem_nil
  | @field type helement =>
    obtain ⟨dims, element⟩ := type
    cases helement with
    | primitive p => exact List.not_mem_nil
    | object _ hchars =>
      intro hmem
      exact (isPathChar_iff.mp (hchars _ hmem)).2.2.1 rfl

namespace MethodDescriptor

theorem chars_eq_cons (m : MethodDescriptor) :
    m.chars = '(' :: (m.parameters.flatMap TypeDescriptor.chars ++ ')' :: m.resultChars) := by
  simp [chars, parameterChars]

/-- Parameters whose class paths hold no closing parenthesis hold none at all. -/
theorem forall_mem_flatMap_chars {m : MethodDescriptor} (h : ∀ t ∈ m.parameters, ')' ∉ t.path) :
    ∀ c ∈ m.parameters.flatMap TypeDescriptor.chars, c != ')' := by
  intro c hc
  obtain ⟨t, ht, hmem⟩ := List.mem_flatMap.mp hc
  have hne : c ≠ ')' := fun heq => TypeDescriptor.not_mem_chars (by decide) (h t ht) (heq ▸ hmem)
  simpa using hne

/-- The first closing parenthesis of a descriptor ends its parameters. -/
theorem parameterSectionChars?_chars {m : MethodDescriptor}
    (h : ∀ t ∈ m.parameters, ')' ∉ t.path) :
    parameterSectionChars? m.chars = some m.parameterChars := by
  have hinner : ')' ∉ m.parameters.flatMap TypeDescriptor.chars := fun hmem =>
    absurd (forall_mem_flatMap_chars h _ hmem) (by decide)
  exact parameterSectionChars?_eq_some_iff.mpr ⟨_, m.resultChars, hinner, rfl, rfl⟩

theorem IsWellFormed.not_mem_path {m : MethodDescriptor} (h : m.IsWellFormed) :
    ∀ t ∈ m.parameters, ')' ∉ t.path :=
  fun t ht => (h.parameters t ht).2.not_mem_path

end MethodDescriptor

/-! ## What a reader has read -/

namespace FieldReader

/-- The text that has been read. -/
def chars (r : FieldReader) : List Char :=
  r.fields.reverse.flatMap FieldType.chars ++ List.replicate r.dims '['
    ++ (r.path.map fun path => 'L' :: path.reverse).getD []

/-- All that has been read is well-formed. -/
structure IsSound (r : FieldReader) : Prop where
  fields : ∀ t ∈ r.fields, t.element.IsWellFormed
  path : ∀ path ∈ r.path, ∀ c ∈ path, isPathChar c

/-- The text of a reader that has just ended a field type. -/
theorem chars_finish (r : FieldReader) (element : Element) :
    (r.finish element).chars
      = r.fields.reverse.flatMap FieldType.chars ++ List.replicate r.dims '[' ++ element.chars := by
  simp [finish, chars, FieldType.chars]

theorem IsSound.finish {r : FieldReader} (hr : r.IsSound) {element : Element}
    (h : element.IsWellFormed) : (r.finish element).IsSound where
  fields := List.forall_mem_cons.mpr ⟨h, hr.fields⟩
  path := fun _ hpath => absurd hpath (by simp [FieldReader.finish])

/-- **Step**: reading a character adds it to the text, and keeps all well-formed. -/
theorem IsSound.step {r s : FieldReader} {c : Char} (hr : r.IsSound)
    (h : FieldReader.step r c = some s) : s.IsSound ∧ s.chars = r.chars ++ [c] := by
  obtain ⟨fields, dims, path⟩ := r
  cases path with
  | some path =>
    have hpath := hr.path path rfl
    simp only [FieldReader.step] at h
    split at h
    · rename_i hend
      split at h
      · cases h
      · rename_i hne
        rw [← Option.some.inj h, chars_finish]
        refine ⟨hr.finish (.object ?_ ?_), ?_⟩
        · simpa using hne
        · simpa using hpath
        · simp [chars, Element.chars, hend]
    · split at h
      · rename_i hc
        rw [← Option.some.inj h]
        refine ⟨⟨hr.fields, ?_⟩, by simp [chars]⟩
        rintro _ ⟨⟩
        exact List.forall_mem_cons.mpr ⟨hc, hpath⟩
      · cases h
  | none =>
    simp only [FieldReader.step] at h
    split at h
    · rename_i hc
      rw [← Option.some.inj h]
      exact ⟨⟨hr.fields, hr.path⟩, by simp [chars, List.replicate_succ', hc]⟩
    · split at h
      · rename_i hc
        rw [← Option.some.inj h]
        refine ⟨⟨hr.fields, ?_⟩, by simp [chars, hc]⟩
        rintro _ ⟨⟩
        exact List.forall_mem_nil _
      · obtain ⟨p, hp, hs⟩ := Option.map_eq_some_iff.mp h
        rw [← hs, chars_finish]
        refine ⟨hr.finish (.primitive p), ?_⟩
        simp [chars, Element.chars, Primitive.code_of_ofCode? hp]

/-- **Run**: what a reader has read is what it was given. -/
theorem IsSound.foldlM {cs : List Char} {r s : FieldReader} (hr : r.IsSound)
    (h : cs.foldlM FieldReader.step r = some s) : s.IsSound ∧ s.chars = r.chars ++ cs := by
  induction cs generalizing r with
  | nil =>
    cases h
    exact ⟨hr, by simp⟩
  | cons c cs ih =>
    rw [List.foldlM_cons] at h
    obtain ⟨u, hu, hrest⟩ := Option.bind_eq_some_iff.mp h
    obtain ⟨hsound, hchars⟩ := hr.step hu
    obtain ⟨hsound', hchars'⟩ := ih hsound hrest
    exact ⟨hsound', by rw [hchars', hchars, List.append_assoc, List.singleton_append]⟩

/-! ## Reading what was written -/

theorem foldlM_markers (fields : List FieldType) (dims n : Nat) :
    (List.replicate n '[').foldlM step ⟨fields, dims, none⟩ = some ⟨fields, dims + n, none⟩ := by
  induction n generalizing dims with
  | zero => rfl
  | succ n ih =>
    rw [List.replicate_succ, List.foldlM_cons]
    show (List.replicate n '[').foldlM step ⟨fields, dims + 1, none⟩ = _
    rw [ih, Nat.add_assoc, Nat.add_comm 1 n]

theorem foldlM_path {cs : List Char} (h : ∀ c ∈ cs, isPathChar c) (fields : List FieldType)
    (dims : Nat) (path : List Char) :
    cs.foldlM step ⟨fields, dims, some path⟩ = some ⟨fields, dims, some (cs.reverse ++ path)⟩ := by
  induction cs generalizing path with
  | nil => rfl
  | cons c cs ih =>
    rw [List.forall_mem_cons] at h
    have hc : step ⟨fields, dims, some path⟩ c = some ⟨fields, dims, some (c :: path)⟩ := by
      simp only [step]
      rw [if_neg (isPathChar_iff.mp h.1).1, if_pos h.1]
    rw [List.foldlM_cons, hc]
    show cs.foldlM step ⟨fields, dims, some (c :: path)⟩ = _
    rw [ih h.2, List.reverse_cons, List.append_assoc, List.singleton_append]

theorem foldlM_element {element : Element} (h : element.IsWellFormed) (fields : List FieldType)
    (dims : Nat) :
    element.chars.foldlM step ⟨fields, dims, none⟩ = some ⟨⟨dims, element⟩ :: fields, 0, none⟩ := by
  cases h with
  | primitive p => cases p <;> rfl
  | @object path hne hpath =>
    rw [Element.chars, List.cons_append, List.foldlM_cons]
    show (path.toList ++ [';']).foldlM step ⟨fields, dims, some []⟩ = _
    rw [List.foldlM_append, foldlM_path hpath, List.append_nil]
    show (step ⟨fields, dims, some path.toList.reverse⟩ ';').bind pure = _
    have hempty : ¬ path.toList.reverse.isEmpty := by simpa using hne
    simp only [step, if_true, if_neg hempty, List.reverse_reverse, String.ofList_toList]
    rfl

theorem foldlM_fields {ts : List FieldType} (h : ∀ t ∈ ts, t.element.IsWellFormed)
    (fields : List FieldType) :
    (ts.flatMap FieldType.chars).foldlM step ⟨fields, 0, none⟩
      = some ⟨ts.reverse ++ fields, 0, none⟩ := by
  induction ts generalizing fields with
  | nil => rfl
  | cons t ts ih =>
    rw [List.forall_mem_cons] at h
    have ht : t.chars.foldlM step ⟨fields, 0, none⟩ = some ⟨t :: fields, 0, none⟩ := by
      rw [FieldType.chars, List.foldlM_append, foldlM_markers, Nat.zero_add]
      exact foldlM_element h.1 fields t.dims
    rw [List.flatMap_cons, List.foldlM_append, ht]
    show (ts.flatMap FieldType.chars).foldlM step ⟨t :: fields, 0, none⟩ = _
    rw [ih h.2, List.reverse_cons, List.append_assoc, List.singleton_append]

end FieldReader

/-- A text is read as a list of field types exactly if it is their text. -/
theorem readFields?_eq_some_iff {cs : List Char} {ts : List FieldType} :
    readFields? cs = some ts ↔
      cs = ts.flatMap FieldType.chars ∧ ∀ t ∈ ts, t.element.IsWellFormed := by
  constructor
  · intro h
    obtain ⟨r, hr, hresult⟩ := Option.bind_eq_some_iff.mp h
    have hstart : FieldReader.start.IsSound :=
      ⟨List.forall_mem_nil _, fun _ hpath => absurd hpath (by simp [FieldReader.start])⟩
    obtain ⟨hsound, hchars⟩ := hstart.foldlM hr
    -- nothing is unfinished, so the text is that of the finished field types
    rw [FieldReader.result?] at hresult
    split at hresult
    · rename_i hdone
      obtain ⟨fields, dims, path⟩ := r
      obtain ⟨rfl, hpath⟩ : dims = 0 ∧ path.isNone := hdone
      obtain rfl : path = none := by simpa using hpath
      cases hresult
      refine ⟨?_, fun t ht => hsound.fields t (List.mem_reverse.mp ht)⟩
      simpa [FieldReader.chars, FieldReader.start] using hchars.symm
    · cases hresult
  · rintro ⟨rfl, h⟩
    rw [readFields?, FieldReader.start, FieldReader.foldlM_fields h, List.append_nil]
    show FieldReader.result? ⟨ts.reverse, 0, none⟩ = _
    simp [FieldReader.result?]

namespace MethodDescriptor

/-! ## Methods -/

/-- What stands after the parameters is read as a result exactly if it is its text. -/
theorem readResult?_eq_some_iff {cs : List Char} {result : Option TypeDescriptor} :
    readResult? cs = some result ↔
      cs = (result.map TypeDescriptor.chars).getD [] ∧ ∀ t ∈ result, t.IsWellFormed := by
  constructor
  · intro h
    rw [readResult?] at h
    split at h
    · rename_i hnil
      cases h
      exact ⟨by simpa using hnil, by simp⟩
    · split at h
      · rename_i hvoid
        cases h
        refine ⟨hvoid, ?_⟩
        rintro _ ⟨⟩
        exact .void
      · split at h
        · rename_i type htype
          cases h
          obtain ⟨rfl, hwell⟩ := readFields?_eq_some_iff.mp htype
          refine ⟨by simp [TypeDescriptor.chars], ?_⟩
          rintro _ ⟨⟩
          exact .field (hwell type List.mem_cons_self)
        · cases h
  · rintro ⟨rfl, h⟩
    cases result with
    | none => rfl
    | some t =>
      cases h t rfl with
      | void => rfl
      | @field type helement =>
        obtain ⟨c, rest, hchars, hvoid, -⟩ := type.exists_chars_eq
        have hread : readFields? type.chars = some [type] :=
          readFields?_eq_some_iff.mpr ⟨by simp, List.forall_mem_singleton.mpr helement⟩
        show readResult? type.chars = _
        rw [readResult?, hread, hchars, if_neg (by simp),
          if_neg fun heq => hvoid (List.cons.inj heq).1]

/-- Parameters that are values are field types. -/
theorem exists_map_field {ts : List TypeDescriptor} (h : ∀ t ∈ ts, t ≠ .void ∧ t.IsWellFormed) :
    ∃ fields : List FieldType, ts = fields.map .field ∧ ∀ t ∈ fields, t.element.IsWellFormed := by
  induction ts with
  | nil => exact ⟨[], rfl, List.forall_mem_nil _⟩
  | cons t ts ih =>
    rw [List.forall_mem_cons] at h
    obtain ⟨fields, rfl, hfields⟩ := ih h.2
    obtain ⟨⟨hvoid, ht⟩, -⟩ := h
    cases ht with
    | void => exact absurd rfl hvoid
    | field helement => exact ⟨_ :: fields, rfl, List.forall_mem_cons.mpr ⟨helement, hfields⟩⟩

theorem flatMap_map_field (fields : List FieldType) :
    (fields.map TypeDescriptor.field).flatMap TypeDescriptor.chars
      = fields.flatMap FieldType.chars := by
  rw [List.flatMap_map]
  rfl

/-- Reading accepts exactly what writing produces. -/
theorem parseChars?_eq_some_iff {cs : List Char} {m : MethodDescriptor} :
    parseChars? cs = some m ↔ cs = m.chars ∧ m.IsWellFormed := by
  constructor
  · intro h
    rw [parseChars?.eq_def] at h
    split at h
    · rename_i rest
      split at h
      · cases h
      · rename_i mark after hdrop
        -- the parameters end at the first closing parenthesis
        obtain rfl : mark = ')' := by
          have hhead := List.head?_dropWhile_not (· != ')') rest
          rw [hdrop] at hhead
          simpa using hhead
        have hsplit : rest = rest.takeWhile (· != ')') ++ ')' :: after := by
          rw [← hdrop, List.takeWhile_append_dropWhile]
        obtain ⟨fields, hfields, h⟩ := Option.bind_eq_some_iff.mp h
        obtain ⟨result, hresult, h⟩ := Option.bind_eq_some_iff.mp h
        cases h
        obtain ⟨htake, hwell⟩ := readFields?_eq_some_iff.mp hfields
        obtain ⟨hafter, hwell'⟩ := readResult?_eq_some_iff.mp hresult
        rw [htake, hafter] at hsplit
        refine ⟨?_, ⟨?_, hwell'⟩⟩
        · rw [chars_eq_cons, flatMap_map_field, hsplit]
          rfl
        · intro t ht
          obtain ⟨type, htype, rfl⟩ := List.mem_map.mp ht
          exact ⟨TypeDescriptor.noConfusion, .field (hwell type htype)⟩
    · cases h
  · rintro ⟨rfl, h⟩
    have hflat := forall_mem_flatMap_chars h.not_mem_path
    obtain ⟨parameters, result⟩ := m
    obtain ⟨fields, rfl, hfields⟩ := exists_map_field h.parameters
    have hread := readFields?_eq_some_iff.mpr ⟨rfl, hfields⟩
    have hresult := readResult?_eq_some_iff.mpr ⟨rfl, h.result⟩
    rw [chars_eq_cons, parseChars?, List.dropWhile_append_of_pos hflat,
      List.takeWhile_append_of_pos hflat]
    simp only [bne_self_eq_false, Bool.false_eq_true, not_false_eq_true, List.dropWhile_cons_of_neg,
      List.takeWhile_cons_of_neg, List.append_nil, flatMap_map_field, hread]
    show (readResult? ((result.map TypeDescriptor.chars).getD [])).bind _ = _
    rw [hresult]
    rfl

/-- **Reading accepts exactly what writing produces**, and so a text denotes at most one
well-formed descriptor. -/
theorem parse?_eq_some_iff {text : String} {m : MethodDescriptor} :
    parse? text = some m ↔ text = m.render ∧ m.IsWellFormed := by
  rw [parse?, parseChars?_eq_some_iff, render, ← String.toList_inj, String.toList_ofList]

theorem parse?_render {m : MethodDescriptor} (h : m.IsWellFormed) : parse? m.render = some m :=
  parse?_eq_some_iff.mpr ⟨rfl, h⟩

theorem IsWellFormed.parametersOnly {m : MethodDescriptor} (h : m.IsWellFormed) :
    m.parametersOnly.IsWellFormed :=
  ⟨h.parameters, by simp [MethodDescriptor.parametersOnly]⟩

/-! ## Parts of a written descriptor -/

/-- The parameter section of a written descriptor is the text of its parameters. -/
theorem parameterSection?_render {m : MethodDescriptor} (h : ∀ t ∈ m.parameters, ')' ∉ t.path) :
    parameterSection? m.render = some m.parametersOnly.render := by
  rw [parameterSection?, render, String.toList_ofList, parameterSectionChars?_chars h]
  simp [render, chars, MethodDescriptor.parametersOnly, parameterChars, resultChars]

/-- A descriptor with a result ends in a letter or a semicolon. -/
theorem exists_chars_eq_concat {m : MethodDescriptor} {t : TypeDescriptor}
    (h : m.result = some t) :
    ∃ inner last, m.chars = '(' :: inner ++ [last] ∧ last ≠ ')' ∧ ¬ Text.isBlank last := by
  obtain ⟨before, last, hchars, hlast⟩ := t.exists_chars_eq_concat
  refine ⟨m.parameters.flatMap TypeDescriptor.chars ++ ')' :: before, last, ?_, hlast⟩
  rw [chars_eq_cons, resultChars, h, Option.map_some, Option.getD_some, hchars]
  simp

/-- Only a descriptor without a result ends in a parenthesis. -/
theorem isParameterOnly_render (m : MethodDescriptor) :
    isParameterOnly m.render = m.result.isNone := by
  rw [isParameterOnly, render, String.toList_ofList]
  cases hresult : m.result with
  | none =>
    rw [chars_eq_cons, resultChars, hresult, ← List.cons_append]
    show (_ && (List.getLast? (_ ++ [')']) == some ')')) = true
    rw [List.getLast?_concat]
    rfl
  | some t =>
    obtain ⟨inner, last, hchars, hlast, -⟩ := exists_chars_eq_concat hresult
    rw [hchars, List.getLast?_concat]
    simpa using hlast

theorem render_ne_empty (m : MethodDescriptor) : m.render ≠ "" := by
  intro h
  have hnil : m.chars = [] := String.ofList_inj.mp h
  rw [chars_eq_cons] at hnil
  cases hnil

end MethodDescriptor

end DeprecatedApi
