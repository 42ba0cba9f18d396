import DeprecatedApi.Proofs.FactForms
import DeprecatedApi.Proofs.JsonRoundTrip

/-!
# Reading facts

All texts that write the same facts are read as these facts, from the text to the fact file.
One of them has every field.

* `FactFile.isPresentedBy_toJson`: the way with every field is one of the ways to write facts.
* `parse_of_isPresentedBy`: every way is read as the facts.
* `hugeNumberText_refused`: a value inside a node that no one asks for can matter after all.
-/

namespace DeprecatedApi

/-! ## Every field written out -/

namespace Json

theorem writesOption_ofOption {α : Type} {writes : α → Json → Prop} {encode : α → Json}
    (h : ∀ a, writes a (encode a)) (value : Option α) :
    WritesOption writes value (ofOption encode value) := by
  cases value with
  | none => rfl
  | some a => exact h a

theorem writesText? (text : Option String) :
    WritesOption WritesText text (ofOption .string text) := by
  cases text with
  | none => rfl
  | some text => rfl

theorem writesList_map {α : Type} {writes : α → Json → Prop} {encode : α → Json} {as : List α}
    (h : ∀ a ∈ as, writes a (encode a)) : WritesList writes as (array (as.map encode)) :=
  .array (List.forall₂_map_right_iff.mpr (List.forall₂_same.mpr h))

theorem height_array_le {items : List Json} {n : Nat} (h : ∀ item ∈ items, item.height ≤ n) :
    (array items).height ≤ n + 1 := by
  rw [height, Nat.add_le_add_iff_right]
  induction items with
  | nil => exact Nat.zero_le n
  | cons item items ih =>
    rw [List.forall_mem_cons] at h
    exact Nat.max_le.mpr ⟨h.1, ih h.2⟩

theorem height_ofFields_le {fields : List (String × Json)} {n : Nat}
    (h : fields.Forall fun field => field.2.height ≤ n) : (ofFields fields).height ≤ n + 1 := by
  rw [List.forall_iff_forall_mem] at h
  rw [ofFields, height, Nat.add_le_add_iff_right]
  induction fields with
  | nil => exact Nat.zero_le n
  | cons field fields ih =>
    rw [List.forall_mem_cons] at h
    exact Nat.max_le.mpr ⟨h.1, ih h.2⟩

theorem height_ofOption_le {α : Type} {encode : α → Json} {n : Nat}
    (h : ∀ a, (encode a).height ≤ n) (value : Option α) : (ofOption encode value).height ≤ n := by
  cases value with
  | none => exact Nat.zero_le n
  | some a => exact h a

theorem height_text? (text : Option String) : (ofOption .string text).height ≤ 0 :=
  height_ofOption_le (fun _ => Nat.le_refl 0) text

end Json

namespace HostType

theorem isPresentedBy_toJson (Ignored : Json → Prop) (type : HostType) :
    type.IsPresentedBy Ignored type.toJson := by
  cases type with
  | unknown => exact ⟨Record.presents_of_forall₂ (by decide) (.cons ⟨rfl, rfl⟩ .nil)⟩
  | void => exact ⟨Record.presents_of_forall₂ (by decide) (.cons ⟨rfl, rfl⟩ .nil)⟩
  | named fqn name dims =>
    have hkeys : ["kind", "fqn", "name", "dims"].Nodup := by decide
    exact ⟨Record.presents_of_forall₂ hkeys (.cons ⟨rfl, rfl⟩ (.cons ⟨rfl, Json.writesText? fqn⟩
      (.cons ⟨rfl, Json.writesText? name⟩ (.cons ⟨rfl, rfl⟩ .nil))))⟩

theorem height_toJson_le (type : HostType) : type.toJson.height ≤ 1 := by
  cases type with
  | unknown => exact Nat.le_refl 1
  | void => exact Nat.le_refl 1
  | named fqn name dims =>
    exact Json.height_ofFields_le
      ⟨Nat.le_refl 0, Json.height_text? fqn, Json.height_text? name, Nat.le_refl 0⟩

theorem isWritable_toJson (type : HostType) : type.toJson.IsWritable := by
  cases type with
  | unknown => exact .ofFields (Json.IsWritable.string _)
  | void => exact .ofFields (Json.IsWritable.string _)
  | named fqn name dims =>
    exact .ofFields ⟨.string _, .ofOption .string fqn, .ofOption .string name, .ofNat dims⟩

end HostType

namespace Owner

theorem isPresentedBy_toJson (Ignored : Json → Prop) (owner : Owner) :
    owner.IsPresentedBy Ignored owner.toJson := by
  have hkeys : ["fqcn", "is_type"].Nodup := by decide
  exact ⟨Record.presents_of_forall₂ hkeys
    (.cons ⟨rfl, Json.writesText? owner.fqcn⟩ (.cons ⟨rfl, rfl⟩ .nil))⟩

theorem height_toJson_le (owner : Owner) : owner.toJson.height ≤ 1 :=
  Json.height_ofFields_le ⟨Json.height_text? owner.fqcn, Nat.le_refl 0⟩

theorem isWritable_toJson (owner : Owner) : owner.toJson.IsWritable :=
  .ofFields ⟨.ofOption .string owner.fqcn, .bool owner.isType⟩

end Owner

namespace Symbol

theorem isPresentedBy_toJson (Ignored : Json → Prop) (s : Symbol) :
    s.IsPresentedBy Ignored s.toJson := by
  have hkeys : fieldNames.Nodup := by decide
  have howner := Json.writesOption_ofOption (Owner.isPresentedBy_toJson Ignored) s.owner
  have hparameters := Json.writesList_map fun t (_ : t ∈ s.parameters) =>
    t.isPresentedBy_toJson Ignored
  have hreturn := s.returnType.isPresentedBy_toJson Ignored
  exact ⟨Record.presents_of_forall₂ hkeys (.cons ⟨rfl, rfl⟩ (.cons ⟨rfl, rfl⟩
    (.cons ⟨rfl, howner⟩ (.cons ⟨rfl, rfl⟩ (.cons ⟨rfl, hparameters⟩
      (.cons ⟨rfl, hreturn⟩ .nil))))))⟩

theorem height_toJson_le (s : Symbol) : s.toJson.height ≤ 3 := by
  have howner : (Json.ofOption Owner.toJson s.owner).height ≤ 1 :=
    Json.height_ofOption_le Owner.height_toJson_le s.owner
  have hparameters : (Json.array (s.parameters.map HostType.toJson)).height ≤ 2 :=
    Json.height_array_le (List.forall_mem_map.mpr fun t _ => t.height_toJson_le)
  have hreturn := s.returnType.height_toJson_le
  exact Json.height_ofFields_le ⟨Nat.zero_le 2, Nat.zero_le 2, howner.trans (by decide),
    Nat.zero_le 2, hparameters, hreturn.trans (by decide)⟩

theorem isWritable_toJson (s : Symbol) : s.toJson.IsWritable :=
  .ofFields ⟨.string _, .string _, .ofOption Owner.isWritable_toJson s.owner, .bool _,
    .array (List.forall_mem_map.mpr fun t _ => t.isWritable_toJson),
    s.returnType.isWritable_toJson⟩

end Symbol

namespace Node

theorem nodup_map_key_forms (Ignored : Json → Prop) (node : Node) :
    ((node.forms Ignored).map FieldForm.key).Nodup := by
  have hcommon : fieldNames.Nodup := by decide
  have hidentifier : (fieldNames ++ ["role"]).Nodup := by decide
  obtain ⟨line, column, shape⟩ := node
  cases shape with
  | call symbol => exact hcommon
  | construction symbol => exact hcommon
  | memberAccess symbol => exact hcommon
  | identifier symbol role => exact hidentifier

theorem isPresentedBy_toJson (Ignored : Json → Prop) (node : Node) :
    node.IsPresentedBy Ignored node.toJson := by
  have hsymbol := Json.writesOption_ofOption (Symbol.isPresentedBy_toJson Ignored)
    node.shape.symbol?
  refine ⟨Record.presents_of_forall₂ (nodup_map_key_forms Ignored node)
    (.cons ⟨rfl, rfl⟩ (.cons ⟨rfl, rfl⟩ ?_)), ?_⟩
  · obtain ⟨line, column, shape⟩ := node
    cases shape with
    | call symbol => exact .cons ⟨rfl, rfl⟩ (.cons ⟨rfl, hsymbol⟩ .nil)
    | construction symbol => exact .cons ⟨rfl, rfl⟩ (.cons ⟨rfl, hsymbol⟩ .nil)
    | memberAccess symbol => exact .cons ⟨rfl, rfl⟩ (.cons ⟨rfl, hsymbol⟩ .nil)
    | identifier symbol role =>
      exact .cons ⟨rfl, rfl⟩ (.cons ⟨rfl, hsymbol⟩ (.cons ⟨rfl, rfl⟩ .nil))
  · -- node, symbol, list of parameters, type
    have hfour : node.toJson.height ≤ 3 + 1 := by
      have hsymbol : (Json.ofOption Symbol.toJson node.shape.symbol?).height ≤ 3 :=
        Json.height_ofOption_le Symbol.height_toJson_le _
      obtain ⟨line, column, shape⟩ := node
      refine Json.height_ofFields_le ?_
      cases shape with
      | call symbol => exact ⟨Nat.zero_le 3, Nat.zero_le 3, Nat.zero_le 3, hsymbol⟩
      | construction symbol => exact ⟨Nat.zero_le 3, Nat.zero_le 3, Nat.zero_le 3, hsymbol⟩
      | memberAccess symbol => exact ⟨Nat.zero_le 3, Nat.zero_le 3, Nat.zero_le 3, hsymbol⟩
      | identifier symbol role =>
        exact ⟨Nat.zero_le 3, Nat.zero_le 3, Nat.zero_le 3, hsymbol, Nat.zero_le 3⟩
    exact hfour.trans (by decide)

theorem isWritable_toJson (node : Node) : node.toJson.IsWritable := by
  obtain ⟨line, column, shape⟩ := node
  have hsymbol := Json.IsWritable.ofOption Symbol.isWritable_toJson shape.symbol?
  refine .ofFields ?_
  cases shape with
  | call symbol => exact ⟨.ofNat line, .ofNat column, .string _, hsymbol⟩
  | construction symbol => exact ⟨.ofNat line, .ofNat column, .string _, hsymbol⟩
  | memberAccess symbol => exact ⟨.ofNat line, .ofNat column, .string _, hsymbol⟩
  | identifier symbol role =>
    exact ⟨.ofNat line, .ofNat column, .string _, hsymbol, .string role.name⟩

end Node

namespace FactFile

theorem isPresentedBy_toJson (Ignored : Json → Prop) (f : FactFile) :
    f.IsPresentedBy Ignored f.toJson := by
  have hkeys : fieldNames.Nodup := by decide
  have hnodes := Json.writesList_map fun node (_ : node ∈ f.nodes) =>
    node.isPresentedBy_toJson Ignored
  exact ⟨Record.presents_of_forall₂ hkeys (.cons ⟨rfl, rfl⟩ (.cons ⟨rfl, hnodes⟩ .nil))⟩

theorem isWritable_toJson (f : FactFile) : f.toJson.IsWritable :=
  .ofFields ⟨.string _, .array (List.forall_mem_map.mpr fun node _ => node.isWritable_toJson)⟩

theorem parse?_eq_ofJson? {text : String} {j : Json} (h : Json.parse? text = some j) :
    parse? text = ofJson? j := by
  rw [parse?, h]
  rfl

end FactFile

/-! ## Main result -/

/-- **All ways to write facts are read as the same facts.** Whatever the order of the members,
whichever defaults are left out, whether absent values are left out or written `null`, and
whatever is added: beside the nodes anything, inside a node anything readable that is not
nested too deep. In particular facts written with every field are read back. -/
theorem parse_of_isPresentedBy {f : FactFile} (hbounded : f.IsBounded) (path : String) :
    (∀ text j, Json.parse? text = some j → f.IsPresentedBy (·.isReadable) j →
      FactFile.parse path text = .ok f) ∧
    FactFile.parse path f.toJson.compact = .ok f := by
  have hread : ∀ text j, Json.parse? text = some j → f.IsPresentedBy (·.isReadable) j →
      FactFile.parse path text = .ok f := by
    intro text j htext hj
    rw [FactFile.parse, FactFile.parse?_eq_ofJson? htext,
      FactFile.ofJson?_of_isPresentedBy hbounded hj]
  refine ⟨hread, hread _ _ (Json.parse?_compact f.isWritable_toJson) ?_⟩
  exact f.isPresentedBy_toJson _

/-- Facts about one call. -/
def callFacts : FactFile :=
  ⟨"A.java", [⟨Number.maxCount, 0,
    .call (some ⟨"m", .method, none, false, [], .named (some "a.B") none 2⟩)⟩]⟩

/-- The same facts, with tags behind the fields that they govern, defaults left out, a `null`
and members that nobody asks for: a number that is too large beside the nodes, a place of no
identifier in the node, a list in the type. -/
def shuffledFacts : Json :=
  .ofFields [("x", .number ⟨false, 1, [], some 999⟩), ("nodes", .array [.ofFields
    [("symbol", .ofFields
      [("return_type", .ofFields
        [("dims", .ofNat 2), ("name", .null), ("fqn", .string "a.B"), ("x", .array [.null]),
          ("kind", .string "named")]),
        ("kind", .string "method"), ("name", .string "m")]),
      ("role", .ofNat 7), ("kind", .string "call"), ("line", .ofNat Number.maxCount)]]),
    ("file", .string "A.java")]

/-- The text of the shuffled facts. -/
def shuffledText : String :=
  "\x7b\"x\":1e999,\"nodes\":[\x7b\"symbol\":\x7b\"return_type\":\x7b\"dims\":2,\"name\":null,"
    ++ "\"fqn\":\"a.B\",\"x\":[null],\"kind\":\"named\"\x7d,\"kind\":\"method\",\"name\":\"m\"\x7d,"
    ++ "\"role\":7,\"kind\":\"call\",\"line\":18446744073709551615\x7d],\"file\":\"A.java\"\x7d"

/-- The shuffled text is read as the facts, and so is the one with every field. -/
theorem parse_shuffledText :
    callFacts.IsBounded ∧ callFacts.IsPresentedBy (·.isReadable) shuffledFacts ∧
      FactFile.parse "unit.facts.json" shuffledText = .ok callFacts ∧
      FactFile.parse "unit.facts.json" callFacts.toJson.compact = .ok callFacts := by
  have hbounded : callFacts.IsBounded := by
    refine List.forall_mem_singleton.mpr ⟨Nat.le_refl _, Nat.zero_le _, ?_⟩
    rintro s ⟨⟩
    exact ⟨List.forall_mem_nil _, (by decide : 2 ≤ Number.maxCount)⟩
  have hwritable : shuffledFacts.IsWritable :=
    .ofFields ⟨.number (List.forall_mem_nil _), .array (List.forall_mem_singleton.mpr (.ofFields
      ⟨.ofFields ⟨.ofFields ⟨.ofNat 2, .null, .string _,
        .array (List.forall_mem_singleton.mpr .null), .string _⟩, .string _, .string _⟩,
        .ofNat 7, .string _, .ofNat _⟩)), .string _⟩
  have hcompact : shuffledText = shuffledFacts.compact := by decide +kernel
  have htext : Json.parse? shuffledText = some shuffledFacts := by
    rw [hcompact, Json.parse?_compact hwritable]
  have hpresents : callFacts.IsPresentedBy (·.isReadable) shuffledFacts := by
    refine ⟨by decide, List.forall_iff_forall_mem.mp
      ⟨.given rfl, .given (.array (.cons ⟨?_, by decide +kernel⟩ .nil))⟩, fun _ _ _ => trivial⟩
    refine Json.presents_of_isReadable (by decide +kernel)
      ⟨.given rfl, .omitted rfl, .given rfl, .given ⟨?_⟩⟩
    refine Json.presents_of_isReadable (by decide +kernel)
      ⟨.given rfl, .given rfl, .omitted rfl, .omitted rfl, .omitted rfl, .given ⟨?_⟩⟩
    exact Json.presents_of_isReadable (by decide +kernel)
      ⟨.given rfl, .given rfl, .given rfl, .given rfl⟩
  obtain ⟨hread, hwritten⟩ := parse_of_isPresentedBy hbounded "unit.facts.json"
  exact ⟨hbounded, hpresents, hread _ _ htext hpresents, hwritten⟩

/-- A node with a member that nobody asks for, whose value is too large for a double. -/
def hugeNumberFacts : Json :=
  .ofFields [("file", .string "A.java"), ("nodes", .array [.ofFields
    [("line", .ofNat 1), ("kind", .string "call"), ("x", .number ⟨false, 1, [], some 999⟩)]])]

/-- The text of this node. -/
def hugeNumberText : String :=
  "\x7b\"file\":\"A.java\",\"nodes\":[\x7b\"line\":1,\"kind\":\"call\",\"x\":1e999\x7d]\x7d"

/-- The text presents the facts about a call, but is refused. -/
theorem hugeNumberText_refused :
    FactFile.IsBounded ⟨"A.java", [⟨1, 0, .call none⟩]⟩ ∧
      Json.parse? hugeNumberText = some hugeNumberFacts ∧
      FactFile.IsPresentedBy (fun _ => True) ⟨"A.java", [⟨1, 0, .call none⟩]⟩ hugeNumberFacts ∧
      FactFile.parse "unit.facts.json" hugeNumberText
        = .error (.facts "unit.facts.json" Json.verdict) := by
  have hbounded : FactFile.IsBounded ⟨"A.java", [⟨1, 0, .call none⟩]⟩ := by
    refine List.forall_mem_singleton.mpr
      ⟨(by decide : 1 ≤ Number.maxCount), Nat.zero_le _, fun s hs => ?_⟩
    cases hs
  have hwritable : hugeNumberFacts.IsWritable :=
    .ofFields ⟨.string _, .array (List.forall_mem_singleton.mpr (.ofFields
      ⟨.ofNat 1, .string _, .number (List.forall_mem_nil _)⟩))⟩
  have hcompact : hugeNumberText = hugeNumberFacts.compact := by decide +kernel
  have htext : Json.parse? hugeNumberText = some hugeNumberFacts := by
    rw [hcompact, Json.parse?_compact hwritable]
  have hpresents : FactFile.IsPresentedBy (fun _ => True) ⟨"A.java", [⟨1, 0, .call none⟩]⟩
      hugeNumberFacts := by
    refine ⟨by decide, List.forall_iff_forall_mem.mp
      ⟨.given rfl, .given (.array (.cons ⟨?_, by decide +kernel⟩ .nil))⟩, fun _ _ _ => trivial⟩
    exact ⟨by decide, List.forall_iff_forall_mem.mp
      ⟨.given rfl, .omitted rfl, .given rfl, .omitted rfl⟩, fun _ _ _ => trivial⟩
  have hrefused : FactFile.ofJson? hugeNumberFacts = none := by
    decide +kernel
  refine ⟨hbounded, htext, hpresents, ?_⟩
  rw [FactFile.parse, FactFile.parse?_eq_ofJson? htext, hrefused]

end DeprecatedApi
