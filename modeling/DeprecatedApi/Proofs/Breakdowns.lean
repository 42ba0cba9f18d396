import DeprecatedApi.Capacity

/-!
# Runs that break down

The size of a descriptor is the size of its text. So a node cannot be checked exactly if the
signature of its reference is longer than any text, and an analysis breaks down exactly if it has
rules, and one of its fact files has such a node.

* `MethodDescriptor.utf8ByteSize_render`: the size of a descriptor is that of its text.
* `Shape.IsUnwritable`: a node whose signature is longer than any text.
* `Shape.isUnwritable_of_dims`: calls and constructions with types that are too deep.
* `MeetsUnwritable`: some rules and fact files bring such a node to the check.
* `Settings.breaksDown_iff`: which analyses break down.
-/

namespace DeprecatedApi

/-! ## Sizes of texts -/

theorem utf8ByteSize_ofList_append (cs ds : List Char) :
    (String.ofList (cs ++ ds)).utf8ByteSize
      = (String.ofList cs).utf8ByteSize + (String.ofList ds).utf8ByteSize := by
  rw [String.ofList_append, String.utf8ByteSize_append]

theorem utf8ByteSize_ofList_cons (c : Char) (cs : List Char) :
    (String.ofList (c :: cs)).utf8ByteSize = c.utf8Size + (String.ofList cs).utf8ByteSize := by
  rw [← List.singleton_append, utf8ByteSize_ofList_append, ← String.singleton_eq_ofList,
    String.utf8ByteSize_singleton]

/-- Each dimension is a byte. -/
theorem utf8ByteSize_dims (dims : Nat) :
    (String.ofList (List.replicate dims '[')).utf8ByteSize = dims := by
  induction dims with
  | zero => rfl
  | succ dims ih =>
    have hbracket : '['.utf8Size = 1 := by decide
    rw [List.replicate_succ, utf8ByteSize_ofList_cons, ih, hbracket, Nat.add_comm]

theorem Element.utf8ByteSize_chars (element : Element) :
    (String.ofList element.chars).utf8ByteSize = element.size := by
  cases element with
  | primitive type =>
    cases type <;> decide
  | object path =>
    have hletter : 'L'.utf8Size = 1 := by decide
    have hend : (String.ofList [';']).utf8ByteSize = 1 := by decide
    rw [chars, List.cons_append, utf8ByteSize_ofList_cons, utf8ByteSize_ofList_append,
      String.ofList_toList, hletter, hend, size]
    omega

theorem FieldType.utf8ByteSize_chars (type : FieldType) :
    (String.ofList type.chars).utf8ByteSize = type.size := by
  rw [chars, utf8ByteSize_ofList_append, utf8ByteSize_dims, Element.utf8ByteSize_chars, size]

namespace TypeDescriptor

theorem utf8ByteSize_chars (type : TypeDescriptor) :
    (String.ofList type.chars).utf8ByteSize = type.size := by
  cases type with
  | void => decide
  | field type => exact type.utf8ByteSize_chars

theorem utf8ByteSize_flatMap_chars (types : List TypeDescriptor) :
    (String.ofList (types.flatMap chars)).utf8ByteSize = totalSize types := by
  induction types with
  | nil => rfl
  | cons type types ih =>
    rw [List.flatMap_cons, utf8ByteSize_ofList_append, utf8ByteSize_chars, ih, totalSize]

theorem size_le_totalSize {type : TypeDescriptor} {types : List TypeDescriptor}
    (h : type ∈ types) : type.size ≤ totalSize types := by
  induction types with
  | nil => cases h
  | cons first rest ih =>
    unfold totalSize
    rcases List.mem_cons.mp h with rfl | hrest
    · omega
    · have hle := ih hrest
      omega

end TypeDescriptor

namespace MethodDescriptor

/-- **The size of a descriptor** is that of its text. -/
theorem utf8ByteSize_render (m : MethodDescriptor) : m.render.utf8ByteSize = m.size := by
  have hopen : '('.utf8Size = 1 := by decide
  have hclose : (String.ofList [')']).utf8ByteSize = 1 := by decide
  have hresult : (String.ofList m.resultChars).utf8ByteSize
      = (m.result.map TypeDescriptor.size).getD 0 := by
    unfold resultChars
    cases m.result with
    | none => rfl
    | some type => exact type.utf8ByteSize_chars
  rw [render, chars, parameterChars, utf8ByteSize_ofList_append, hresult, List.cons_append,
    utf8ByteSize_ofList_cons, utf8ByteSize_ofList_append,
    TypeDescriptor.utf8ByteSize_flatMap_chars, hopen, hclose, size]
  omega

/-- A descriptor is at least as long as each of its parameters. -/
theorem size_le_of_mem {m : MethodDescriptor} {type : TypeDescriptor} (h : type ∈ m.parameters) :
    type.size ≤ m.size := by
  have htotal := TypeDescriptor.size_le_totalSize h
  unfold size
  omega

end MethodDescriptor

/-- The descriptor of a reported type is at least as long as the type is deep. -/
theorem HostType.dims_le_size (fqn name : Option String) (dims : Nat) :
    dims ≤ (HostType.named fqn name dims).descriptor.size := by
  unfold descriptor
  dsimp only
  split
  · rename_i hvoid
    omega
  · simp only [TypeDescriptor.size, FieldType.size, TypeName.fieldType]
    omega

/-! ## Nodes -/

/-- A node whose reference has a signature that is longer than any text. -/
def Shape.IsUnwritable (shape : Shape) : Prop :=
  ∃ reference signature, shape.reference? = some reference ∧
    reference.signature = some signature ∧ Text.maxSize < signature.utf8ByteSize

/-- The signature of the reference of a node is the text of its descriptor. -/
theorem Shape.bind_signature_reference? (shape : Shape) :
    shape.reference?.bind Reference.signature
      = shape.descriptor?.map MethodDescriptor.render := by
  cases shape with
  | call symbol => cases symbol <;> rfl
  | construction symbol => cases symbol <;> rfl
  | memberAccess symbol =>
    show ((symbol.filter Symbol.isVariable).map Symbol.accessReference).bind Reference.signature
      = none
    cases symbol.filter Symbol.isVariable <;> rfl
  | identifier symbol role =>
    show (if role.isCoveredElsewhere then none
      else (symbol.filter Symbol.isStaticField).map Symbol.accessReference).bind
        Reference.signature = none
    split
    · rfl
    · cases symbol.filter Symbol.isStaticField <;> rfl

theorem Shape.breaksDown_iff (shape : Shape) : shape.breaksDown = true ↔ shape.IsUnwritable := by
  have hsignature : shape.IsUnwritable ↔ ∃ signature,
      shape.reference?.bind Reference.signature = some signature ∧
        Text.maxSize < signature.utf8ByteSize := by
    simp only [IsUnwritable, Option.bind_eq_some_iff]
    constructor
    · rintro ⟨reference, signature, hreference, hsignature, hsize⟩
      exact ⟨signature, ⟨reference, hreference, hsignature⟩, hsize⟩
    · rintro ⟨signature, ⟨reference, hreference, hsignature⟩, hsize⟩
      exact ⟨reference, signature, hreference, hsignature, hsize⟩
  rw [hsignature, bind_signature_reference?, breaksDown, Option.any_eq_true]
  simp only [Option.map_eq_some_iff, decide_eq_true_eq]
  constructor
  · rintro ⟨m, hm, hsize⟩
    exact ⟨m.render, ⟨m, hm, rfl⟩, by rwa [m.utf8ByteSize_render]⟩
  · rintro ⟨_, ⟨m, hm, rfl⟩, hsize⟩
    exact ⟨m, hm, by rwa [m.utf8ByteSize_render] at hsize⟩

/-- A parameter of more dimensions than a text has bytes is enough. -/
theorem Shape.isUnwritable_of_dims {symbol : Symbol} {fqn name : Option String} {dims : Nat}
    (hmem : .named fqn name dims ∈ symbol.parameters) (hdims : Text.maxSize < dims) :
    (Shape.call (some symbol)).IsUnwritable ∧ (Shape.construction (some symbol)).IsUnwritable := by
  have hsize : ∀ result,
      Text.maxSize < (MethodDescriptor.ofHost symbol.parameters result).size := by
    intro result
    calc Text.maxSize
      _ < dims := hdims
      _ ≤ (HostType.named fqn name dims).descriptor.size := HostType.dims_le_size fqn name dims
      _ ≤ (MethodDescriptor.ofHost symbol.parameters result).size :=
        MethodDescriptor.size_le_of_mem (List.mem_map_of_mem hmem)
  constructor
  · rw [← breaksDown_iff]
    exact decide_eq_true (hsize (some symbol.returnType))
  · rw [← breaksDown_iff]
    exact decide_eq_true (hsize (some .void))

/-! ## Analyses -/

/-- Some rules and fact files bring a node to the check whose signature is longer than any text.
Without rules, no node is checked. -/
def MeetsUnwritable (rules : RuleSet) (files : List Source) : Prop :=
  rules ≠ [] ∧ ∃ source ∈ files, ∃ unit, source.load = .ok unit ∧
    ∃ node ∈ unit.nodes, node.shape.IsUnwritable

theorem FactFile.breaksDown_iff (rules : RuleSet) (unit : FactFile) :
    unit.breaksDown rules = true ↔ rules ≠ [] ∧ ∃ node ∈ unit.nodes, node.shape.IsUnwritable := by
  have hrules : (!rules.isEmpty) = true ↔ rules ≠ [] := by
    rw [Bool.not_eq_true', ← Bool.not_eq_true, List.isEmpty_iff]
  simp only [breaksDown, Bool.and_eq_true, hrules, List.any_eq_true, Shape.breaksDown_iff]

theorem Source.breaksDown_iff (rules : RuleSet) (source : Source) :
    source.breaksDown rules = true
      ↔ rules ≠ [] ∧ ∃ unit, source.load = .ok unit ∧
        ∃ node ∈ unit.nodes, node.shape.IsUnwritable := by
  unfold breaksDown
  cases source.load with
  | error error => simp
  | ok unit => simp [FactFile.breaksDown_iff]

/-- **An analysis breaks down** exactly if its rules and the fact files that are found bring a
node to the check whose signature is longer than any text. -/
theorem Settings.breaksDown_iff {settings : Settings} {ws : Workspace} {root : String}
    {files : List Source} (h : Discovery.gather ws root
      (settings.excludesUnder (settings.config ws root).value) = .ok files) :
    settings.breaksDown ws root = true
      ↔ MeetsUnwritable (settings.loadRules ws root).value files := by
  unfold breaksDown MeetsUnwritable
  rw [h]
  simp only [List.any_eq_true, Source.breaksDown_iff]
  constructor
  · rintro ⟨source, hsource, hrules, hunit⟩
    exact ⟨hrules, source, hsource, hunit⟩
  · rintro ⟨hrules, source, hsource, hunit⟩
    exact ⟨source, hsource, hrules, hunit⟩

/-- Where the fact files cannot be gathered, none is checked. -/
theorem Settings.breaksDown_of_gather_error {settings : Settings} {ws : Workspace}
    {root : String} {fault : Discovery.Fault} (h : Discovery.gather ws root
      (settings.excludesUnder (settings.config ws root).value) = .error fault) :
    settings.breaksDown ws root = false := by
  unfold breaksDown
  rw [h]

end DeprecatedApi
