import DeprecatedApi.Facts.Codec
import DeprecatedApi.Proofs.JsonNumbers
import DeprecatedApi.Proofs.RecordForms

/-!
# Ways to write facts

The same facts can be written in many ways: members in any order, defaults left out, absent
values as `null` or not at all, and members that nobody asks for anywhere. Decoding does not
see the difference. Inside a node all members are read, also those that nobody asks for; they
must be readable, and not nested too deep.

* `Json.WritesOption`, `Json.WritesList`: values that may be absent, and lists.
* `HostType.IsPresentedBy`, `Owner.IsPresentedBy`, `Symbol.IsPresentedBy`,
  `Node.IsPresentedBy`, `FactFile.IsPresentedBy`: the ways to write facts.
* `FactFile.ofJson?_of_isPresentedBy`: all of them are decoded alike, with a lemma for each part.
-/

namespace DeprecatedApi

/-! ## Readable values -/

namespace Json

theorem membersReadable_iff {members : List (StringValue × Json)} :
    membersReadable members = true ↔
      ∀ member ∈ members, member.1.isSome = true ∧ member.2.isReadable = true := by
  induction members with
  | nil => simp [membersReadable]
  | cons member members ih =>
    rw [membersReadable, Bool.and_eq_true, Bool.and_eq_true, ih, List.forall_mem_cons]

/-- An object that writes readable fields, and ignores only readable values, is readable. -/
theorem isReadable_of_presents {forms : List FieldForm} {members : List (StringValue × Json)}
    (h : Record.Presents forms (·.isReadable) members)
    (hforms : forms.Forall fun form => ∀ value, form.Writes value → value.isReadable = true) :
    (object members).isReadable = true := by
  rw [isReadable, membersReadable_iff]
  intro member hmember
  have hvalue := h.forall_mem (List.forall_iff_forall_mem.mp hforms) (fun _ hvalue => hvalue)
  exact ⟨h.keys member hmember, hvalue member hmember⟩

/-- Whatever a readable object adds to its fields is readable. -/
theorem presents_of_isReadable {forms : List FieldForm} {members : List (StringValue × Json)}
    (hreadable : (object members).isReadable = true)
    (hfields : forms.Forall fun form => form.Admits (Record.valuesOf form.key members)) :
    Record.Presents forms (·.isReadable) members where
  keys member hmember := (membersReadable_iff.mp hreadable member hmember).1
  fields := List.forall_iff_forall_mem.mp hfields
  ignored member hmember _ := (membersReadable_iff.mp hreadable member hmember).2

/-! ## Parts of records -/

/-- A value that may be absent is written as it is, or as `null`. -/
def WritesOption {α : Type} (writes : α → Json → Prop) : Option α → Json → Prop
  | none, j => j = .null
  | some a, j => writes a j

/-- A list is written as an array, item by item. -/
inductive WritesList {α : Type} (writes : α → Json → Prop) (as : List α) : Json → Prop
  | array {items : List Json} (h : List.Forall₂ writes as items) :
    WritesList writes as (.array items)

/-- A text is written as a string. -/
def WritesText (text : String) (j : Json) : Prop :=
  j = .string text

theorem count?_ofNat {n : Nat} (h : n ≤ Number.maxCount) : (ofNat n).count? = some n := by
  simp [ofNat, count?, Number.ofNat, Number.count?, h]

theorem isReadable_ofNat {n : Nat} (h : n ≤ Number.maxCount) : (ofNat n).isReadable = true := by
  simp only [ofNat, isReadable, Scalar.isReadable, Number.fitsDouble_ofNat h]

theorem text?_of_writesText {text : String} {j : Json} (h : WritesText text j) :
    j.text? = some text := by
  rw [h]
  rfl

theorem isReadable_of_writesText {text : String} {j : Json} (h : WritesText text j) :
    j.isReadable = true := by
  rw [h]
  rfl

section

variable {α : Type} {writes : α → Json → Prop} {decode : Json → Option α}

theorem orNull?_of_writesOption {value : Option α} {j : Json} (h : WritesOption writes value j)
    (hnull : decode .null = none)
    (hdecode : ∀ a ∈ value, ∀ j, writes a j → decode j = some a) :
    orNull? decode j = some value := by
  cases value with
  | none =>
    obtain rfl : j = .null := h
    rfl
  | some a =>
    have hj := hdecode a rfl j h
    rw [orNull?.eq_def]
    split
    · rw [hnull] at hj
      cases hj
    · rw [hj]
      rfl

theorem list?_of_writesList {as : List α} {j : Json} (h : WritesList writes as j)
    (hdecode : ∀ a ∈ as, ∀ j, writes a j → decode j = some a) :
    list? decode j = some as := by
  obtain ⟨h⟩ := h
  show List.mapM decode _ = _
  induction h with
  | nil => rfl
  | cons hitem _ ih =>
    rw [List.forall_mem_cons] at hdecode
    rw [List.mapM_cons, hdecode.1 _ hitem, ih hdecode.2]
    rfl

theorem isReadable_of_writesOption {value : Option α} {j : Json} (h : WritesOption writes value j)
    (hwrites : ∀ a ∈ value, ∀ j, writes a j → j.isReadable = true) : j.isReadable = true := by
  cases value with
  | none =>
    obtain rfl : j = .null := h
    rfl
  | some a => exact hwrites a rfl j h

theorem isReadable_of_writesList {as : List α} {j : Json} (h : WritesList writes as j)
    (hwrites : ∀ a ∈ as, ∀ j, writes a j → j.isReadable = true) : j.isReadable = true := by
  obtain ⟨h⟩ := h
  rw [isReadable]
  induction h with
  | nil => rfl
  | cons hitem _ ih =>
    rw [List.forall_mem_cons] at hwrites
    rw [allReadable, hwrites.1 _ hitem, ih hwrites.2]
    rfl

theorem orNull?_of_writesText {text : Option String} {j : Json}
    (h : WritesOption WritesText text j) : orNull? text? j = some text :=
  orNull?_of_writesOption h rfl fun _ _ _ => text?_of_writesText

theorem isReadable_of_writesText? {text : Option String} {j : Json}
    (h : WritesOption WritesText text j) : j.isReadable = true :=
  isReadable_of_writesOption h fun _ _ _ => isReadable_of_writesText

end

end Json

/-! ## Types -/

namespace HostType

/-- The dimensions of a type have at most 64 bits. -/
def IsBounded : HostType → Prop
  | .named _ _ dims => dims ≤ Number.maxCount
  | _ => True

/-- The name of the form of a type. -/
def kindName : HostType → String
  | .unknown => "unknown"
  | .void => "void"
  | .named _ _ _ => "named"

/-- The form of a type. -/
def tag : HostType → TypeTag
  | .unknown => .unknown
  | .void => .void
  | .named _ _ _ => .named

theorem tag?_of_writesText (type : HostType) {j : Json} (h : Json.WritesText type.kindName j) :
    Json.tag? TypeTag.table j = some type.tag := by
  rw [h]
  cases type with
  | unknown => rfl
  | void => rfl
  | named fqn name dims => rfl

/-- How the fields beside the tag are written: only a named type has any. -/
def namedForms : HostType → List FieldForm
  | .named fqn name dims =>
    [.defaulted "fqn" (Json.WritesOption Json.WritesText fqn) fqn none,
      .defaulted "name" (Json.WritesOption Json.WritesText name) name none,
      .defaulted "dims" (· = .ofNat dims) dims 0]
  | _ => []

/-- How the fields of a type are written. -/
def forms (type : HostType) : List FieldForm :=
  .required "kind" (Json.WritesText type.kindName) :: type.namedForms

/-- A value writes a type; what it adds satisfies `Ignored`. -/
inductive IsPresentedBy (Ignored : Json → Prop) (type : HostType) : Json → Prop
  | object {members : List (StringValue × Json)} (h : Record.Presents type.forms Ignored members) :
    IsPresentedBy Ignored type (.object members)

variable {Ignored : Json → Prop} {type : HostType} {j : Json}

theorem ofRecord?_of_holds {fqn name : Option String} {dims : Nat} (hdims : dims ≤ Number.maxCount)
    {r : Record} (h : (named fqn name dims).namedForms.Forall r.Holds) :
    ofRecord? r = some (.named fqn name dims) := by
  obtain ⟨hfqn, hname, hcount⟩ := h
  have hfqn := hfqn.get? fun _ => Json.orNull?_of_writesText
  have hname := hname.get? fun _ => Json.orNull?_of_writesText
  have hcount := hcount.get? fun _ hvalue => hvalue ▸ Json.count?_ofNat hdims
  simp [ofRecord?, hfqn, hname, hcount]

theorem ofJson?_of_isPresentedBy (hbounded : type.IsBounded)
    (h : type.IsPresentedBy Ignored j) : ofJson? j = some type := by
  obtain ⟨h⟩ := h
  rename_i members
  obtain ⟨r, hr, hholds⟩ := h.exists_record ["kind"] (List.cons_subset_cons _ (List.nil_subset _))
  have hkind : r.need? "kind" (Json.tag? TypeTag.table) = some type.tag :=
    (hholds _ List.mem_cons_self List.mem_cons_self).need? fun _ => type.tag?_of_writesText
  rw [ofJson?, hr]
  show (r.need? "kind" (Json.tag? TypeTag.table)).bind _ = _
  rw [hkind]
  cases type with
  | unknown => rfl
  | void => rfl
  | named fqn name dims =>
    obtain ⟨r, hr, hholds⟩ := h.exists_record fieldNames (List.subset_cons_self _ _)
    show (Record.ofMembers? fieldNames members).bind _ = _
    rw [hr]
    exact ofRecord?_of_holds hbounded (List.forall_iff_forall_mem.mpr fun form hform =>
      hholds form (List.mem_cons_of_mem _ hform) (List.mem_map_of_mem hform))

theorem isReadable_of_isPresentedBy (hbounded : type.IsBounded)
    (h : type.IsPresentedBy (·.isReadable) j) : j.isReadable = true := by
  obtain ⟨h⟩ := h
  refine Json.isReadable_of_presents h ?_
  cases type with
  | unknown => exact fun _ => Json.isReadable_of_writesText
  | void => exact fun _ => Json.isReadable_of_writesText
  | named fqn name dims =>
    refine ⟨fun _ => Json.isReadable_of_writesText, fun _ => Json.isReadable_of_writesText?,
      fun _ => Json.isReadable_of_writesText?, ?_⟩
    rintro _ rfl
    exact Json.isReadable_ofNat hbounded

end HostType

/-! ## Symbols -/

namespace Owner

/-- How the fields of an owner are written. -/
def forms (owner : Owner) : List FieldForm :=
  [.defaulted "fqcn" (Json.WritesOption Json.WritesText owner.fqcn) owner.fqcn none,
    .defaulted "is_type" (· = .bool owner.isType) owner.isType true]

theorem map_key_forms (owner : Owner) : owner.forms.map FieldForm.key = fieldNames :=
  rfl

/-- A value writes an owner; what it adds satisfies `Ignored`. -/
inductive IsPresentedBy (Ignored : Json → Prop) (owner : Owner) : Json → Prop
  | object {members : List (StringValue × Json)}
    (h : Record.Presents owner.forms Ignored members) :
    IsPresentedBy Ignored owner (.object members)

variable {Ignored : Json → Prop} {owner : Owner} {j : Json}

theorem ofJson?_of_isPresentedBy (h : owner.IsPresentedBy Ignored j) : ofJson? j = some owner := by
  obtain ⟨h⟩ := h
  obtain ⟨r, hr, hholds⟩ := h.exists_holds (map_key_forms owner)
  obtain ⟨hfqcn, hisType⟩ := hholds
  have hfqcn := hfqcn.get? fun _ => Json.orNull?_of_writesText
  have hisType : r.get? "is_type" Json.flag? true = some owner.isType :=
    hisType.get? fun _ hvalue => hvalue ▸ rfl
  simp [ofJson?, Json.record?, hr, hfqcn, hisType]

theorem isReadable_of_isPresentedBy
    (h : owner.IsPresentedBy (·.isReadable) j) : j.isReadable = true := by
  obtain ⟨h⟩ := h
  refine Json.isReadable_of_presents h ⟨fun _ => Json.isReadable_of_writesText?, ?_⟩
  rintro _ rfl
  rfl

end Owner

/-- The name of a kind of symbols stands for this kind. -/
theorem SymbolKind.choice?_of_writesText (kind : SymbolKind) {j : Json}
    (h : Json.WritesText kind.name j) : Json.choice? Json.isNothing table j = some kind := by
  rw [h]
  cases kind with
  | var => rfl
  | method => rfl
  | type => rfl
  | other => rfl

namespace Symbol

/-- The dimensions of the types of a symbol have at most 64 bits. -/
structure IsBounded (s : Symbol) : Prop where
  parameters : ∀ t ∈ s.parameters, t.IsBounded
  returnType : s.returnType.IsBounded

/-- How the fields of a symbol are written. -/
def forms (Ignored : Json → Prop) (s : Symbol) : List FieldForm :=
  [.required "name" (Json.WritesText s.name),
    .required "kind" (Json.WritesText s.kind.name),
    .defaulted "owner" (Json.WritesOption (Owner.IsPresentedBy Ignored) s.owner) s.owner none,
    .defaulted "is_static" (· = .bool s.isStatic) s.isStatic false,
    .defaulted "parameters" (Json.WritesList (HostType.IsPresentedBy Ignored) s.parameters)
      s.parameters [],
    .defaulted "return_type" (s.returnType.IsPresentedBy Ignored) s.returnType .void]

theorem map_key_forms (Ignored : Json → Prop) (s : Symbol) :
    (s.forms Ignored).map FieldForm.key = fieldNames :=
  rfl

/-- A value writes a symbol; what it adds satisfies `Ignored`. -/
inductive IsPresentedBy (Ignored : Json → Prop) (s : Symbol) : Json → Prop
  | object {members : List (StringValue × Json)}
    (h : Record.Presents (s.forms Ignored) Ignored members) :
    IsPresentedBy Ignored s (.object members)

variable {Ignored : Json → Prop} {s : Symbol} {j : Json}

theorem ofJson?_of_isPresentedBy (hbounded : s.IsBounded) (h : s.IsPresentedBy Ignored j) :
    ofJson? j = some s := by
  obtain ⟨h⟩ := h
  obtain ⟨r, hr, hholds⟩ := h.exists_holds (map_key_forms Ignored s)
  obtain ⟨hname, hkind, howner, hstatic, hparameters, hreturn⟩ := hholds
  have hname := hname.need? fun _ => Json.text?_of_writesText
  have hkind := hkind.need? fun _ => s.kind.choice?_of_writesText
  have howner := howner.get? fun _ hvalue => Json.orNull?_of_writesOption hvalue
    (rfl : Owner.ofJson? .null = none) fun _ _ _ => Owner.ofJson?_of_isPresentedBy
  have hstatic : r.get? "is_static" Json.flag? false = some s.isStatic :=
    hstatic.get? fun _ hvalue => hvalue ▸ rfl
  have hparameters := hparameters.get? fun _ hvalue => Json.list?_of_writesList hvalue
    fun t ht _ => HostType.ofJson?_of_isPresentedBy (hbounded.parameters t ht)
  have hreturn := hreturn.get? fun _ => HostType.ofJson?_of_isPresentedBy hbounded.returnType
  simp [ofJson?, Json.record?, hr, hname, hkind, howner, hstatic, hparameters, hreturn]

theorem isReadable_of_isPresentedBy (hbounded : s.IsBounded)
    (h : s.IsPresentedBy (·.isReadable) j) : j.isReadable = true := by
  obtain ⟨h⟩ := h
  refine Json.isReadable_of_presents h
    ⟨fun _ => Json.isReadable_of_writesText, fun _ => Json.isReadable_of_writesText,
    fun _ hvalue => Json.isReadable_of_writesOption hvalue
      fun _ _ _ => Owner.isReadable_of_isPresentedBy, ?_,
    fun _ hvalue => Json.isReadable_of_writesList hvalue
      fun t ht _ => HostType.isReadable_of_isPresentedBy (hbounded.parameters t ht),
    fun _ => HostType.isReadable_of_isPresentedBy hbounded.returnType⟩
  rintro _ rfl
  rfl

end Symbol

/-! ## Nodes -/

/-- The name of a place stands for this place. -/
theorem Role.choice?_of_writesText (role : Role) {j : Json} (h : Json.WritesText role.name j) :
    Json.choice? Json.isNothing table j = some role := by
  rw [h]
  cases role with
  | standalone => rfl
  | callTarget => rfl
  | accessMember => rfl
  | accessQualifier => rfl
  | declaredName => rfl

namespace Shape

/-- The symbol that a node was resolved to. -/
def symbol? : Shape → Option Symbol
  | .call symbol => symbol
  | .construction symbol => symbol
  | .memberAccess symbol => symbol
  | .identifier symbol _ => symbol

/-- The name of the form of a node. -/
def kindName : Shape → String
  | .call _ => "call"
  | .construction _ => "construction"
  | .memberAccess _ => "member_access"
  | .identifier _ _ => "identifier"

/-- The form of a node. -/
def tag : Shape → ShapeTag
  | .call _ => .call
  | .construction _ => .construction
  | .memberAccess _ => .memberAccess
  | .identifier _ _ => .identifier

theorem tag?_of_writesText (shape : Shape) {j : Json} (h : Json.WritesText shape.kindName j) :
    Json.tag? ShapeTag.table j = some shape.tag := by
  rw [h]
  cases shape with
  | call symbol => rfl
  | construction symbol => rfl
  | memberAccess symbol => rfl
  | identifier symbol role => rfl

/-- How the place of an identifier is written; other nodes have none. -/
def roleForms : Shape → List FieldForm
  | .identifier _ role => [.defaulted "role" (Json.WritesText role.name) role .standalone]
  | _ => []

end Shape

namespace Node

/-- The numbers of a node have at most 64 bits. -/
structure IsBounded (node : Node) : Prop where
  line : node.line ≤ Number.maxCount
  column : node.column ≤ Number.maxCount
  symbol : ∀ s ∈ node.shape.symbol?, s.IsBounded

/-- How the fields of a node are written. -/
def forms (Ignored : Json → Prop) (node : Node) : List FieldForm :=
  .required "line" (· = .ofNat node.line) ::
    .defaulted "column" (· = .ofNat node.column) node.column 0 ::
    .required "kind" (Json.WritesText node.shape.kindName) ::
    .defaulted "symbol" (Json.WritesOption (Symbol.IsPresentedBy Ignored) node.shape.symbol?)
      node.shape.symbol? none ::
    node.shape.roleForms

/-- A value writes a node; what it adds satisfies `Ignored` and is not nested too deep. -/
inductive IsPresentedBy (Ignored : Json → Prop) (node : Node) : Json → Prop
  | object {members : List (StringValue × Json)}
    (h : Record.Presents (node.forms Ignored) Ignored members)
    (hheight : (Json.object members).height ≤ maxHeight) :
    IsPresentedBy Ignored node (.object members)

variable {Ignored : Json → Prop} {node : Node} {j : Json} {members : List (StringValue × Json)}

theorem shapeOf?_of_presents (h : Record.Presents (node.forms Ignored) Ignored members) :
    shapeOf? members node.shape.symbol? node.shape.tag = some node.shape := by
  obtain ⟨line, column, shape⟩ := node
  cases shape with
  | call symbol => rfl
  | construction symbol => rfl
  | memberAccess symbol => rfl
  | identifier symbol role =>
    obtain ⟨r, hr, hholds⟩ := h.exists_record ["role"] (by simp [forms, Shape.roleForms,
      FieldForm.defaulted])
    have hrole := (hholds (.defaulted "role" (Json.WritesText role.name) role .standalone)
      (by simp [forms, Shape.roleForms]) List.mem_cons_self).get?
      fun _ => role.choice?_of_writesText
    simp [shapeOf?, Shape.symbol?, Shape.tag, hr, hrole]

theorem ofMembers?_of_presents (hbounded : node.IsBounded)
    (h : Record.Presents (node.forms Ignored) Ignored members) :
    ofMembers? members = some node := by
  obtain ⟨r, hr, hholds⟩ := h.exists_record fieldNames (List.subset_append_left _ _)
  simp only [forms, List.forall_mem_cons] at hholds
  obtain ⟨hline, hcolumn, hkind, hsymbol, -⟩ := hholds
  have hline := (hline (by simp [fieldNames, FieldForm.required])).need? fun _ hvalue =>
    hvalue ▸ Json.count?_ofNat hbounded.line
  have hcolumn := (hcolumn (by simp [fieldNames, FieldForm.defaulted])).get? fun _ hvalue =>
    hvalue ▸ Json.count?_ofNat hbounded.column
  have hkind := (hkind (by simp [fieldNames, FieldForm.required])).need? fun _ =>
    node.shape.tag?_of_writesText
  have hsymbol := (hsymbol (by simp [fieldNames, FieldForm.defaulted])).get? fun _ hvalue =>
    Json.orNull?_of_writesOption hvalue (rfl : Symbol.ofJson? .null = none)
      fun s hs _ => Symbol.ofJson?_of_isPresentedBy (hbounded.symbol s hs)
  simp [ofMembers?, hr, hline, hcolumn, hkind, hsymbol, shapeOf?_of_presents h]

theorem isReadable_of_presents (hbounded : node.IsBounded)
    (h : Record.Presents (node.forms (·.isReadable))
      (·.isReadable) members) :
    (Json.object members).isReadable = true := by
  refine Json.isReadable_of_presents h (List.forall_iff_forall_mem.mpr ?_)
  simp only [forms, List.forall_mem_cons]
  refine ⟨?_, ?_, fun _ => Json.isReadable_of_writesText,
    fun _ hvalue => Json.isReadable_of_writesOption hvalue
      fun s hs _ => Symbol.isReadable_of_isPresentedBy (hbounded.symbol s hs), ?_⟩
  · rintro _ rfl
    exact Json.isReadable_ofNat hbounded.line
  · rintro _ rfl
    exact Json.isReadable_ofNat hbounded.column
  · intro form hform value hvalue
    cases hshape : node.shape with
    | call symbol => simp [hshape, Shape.roleForms] at hform
    | construction symbol => simp [hshape, Shape.roleForms] at hform
    | memberAccess symbol => simp [hshape, Shape.roleForms] at hform
    | identifier symbol role =>
      rw [hshape] at hform
      obtain rfl := List.mem_singleton.mp hform
      exact Json.isReadable_of_writesText hvalue

theorem ofJson?_of_isPresentedBy (hbounded : node.IsBounded)
    (h : node.IsPresentedBy (·.isReadable) j) : ofJson? j = some node := by
  obtain ⟨h, hheight⟩ := h
  rw [ofJson?, isReadable_of_presents hbounded h, decide_eq_true hheight]
  exact ofMembers?_of_presents hbounded h

end Node

/-! ## Fact files -/

namespace FactFile

/-- The numbers in a fact file have at most 64 bits. -/
def IsBounded (f : FactFile) : Prop :=
  ∀ node ∈ f.nodes, node.IsBounded

/-- How the fields of a fact file are written. -/
def forms (Ignored : Json → Prop) (f : FactFile) : List FieldForm :=
  [.required "file" (Json.WritesText f.file),
    .defaulted "nodes" (Json.WritesList (Node.IsPresentedBy Ignored) f.nodes) f.nodes []]

theorem map_key_forms (Ignored : Json → Prop) (f : FactFile) :
    (f.forms Ignored).map FieldForm.key = fieldNames :=
  rfl

/-- A value writes a fact file. What it adds inside nodes satisfies `Ignored`; beside them it
may add anything. -/
inductive IsPresentedBy (Ignored : Json → Prop) (f : FactFile) : Json → Prop
  | object {members : List (StringValue × Json)}
    (h : Record.Presents (f.forms Ignored) (fun _ => True) members) :
    IsPresentedBy Ignored f (.object members)

theorem ofJson?_of_isPresentedBy {f : FactFile} {j : Json} (hbounded : f.IsBounded)
    (h : f.IsPresentedBy (·.isReadable) j) : ofJson? j = some f := by
  obtain ⟨h⟩ := h
  obtain ⟨r, hr, hholds⟩ := h.exists_holds (map_key_forms _ f)
  obtain ⟨hfile, hnodes⟩ := hholds
  have hfile := hfile.need? fun _ => Json.text?_of_writesText
  have hnodes := hnodes.get? fun _ hvalue => Json.list?_of_writesList hvalue
    fun node hnode _ => Node.ofJson?_of_isPresentedBy (hbounded node hnode)
  simp [ofJson?, Json.record?, hr, hfile, hnodes]

end FactFile
end DeprecatedApi
