import DeprecatedApi.Facts.Basic
import DeprecatedApi.Json.Decode
import DeprecatedApi.Json.Parser
import DeprecatedApi.Error

/-!
# Fact files as JSON

* `HostType.ofJson?`, `Owner.ofJson?`, `Symbol.ofJson?`, `Node.ofJson?`,
  `FactFile.ofJson?`: decoding.
* `FactFile.parse`: decoding a text, with the error for the file it came from.
* `HostType.toJson`, …, `FactFile.toJson`: facts written with every field present.

A node is read whole, with the values that it does not use: all of them must be
readable, and the nesting inside a node is limited. Elsewhere unused values are
skipped unread.
-/

namespace DeprecatedApi

/-! ## Names -/

/-- The kinds of symbols by name. -/
def SymbolKind.table : List (String × SymbolKind) :=
  [("variable", .var), ("method", .method), ("type", .type), ("other", .other)]

/-- The name of a kind of symbols. -/
def SymbolKind.name : SymbolKind → String
  | .var => "variable"
  | .method => "method"
  | .type => "type"
  | .other => "other"

/-- The places of identifiers by name. -/
def Role.table : List (String × Role) :=
  [("standalone", .standalone), ("call_target", .callTarget),
   ("access_member", .accessMember), ("access_qualifier", .accessQualifier),
   ("declared_name", .declaredName)]

/-- The name of a place of identifiers. -/
def Role.name : Role → String
  | .standalone => "standalone"
  | .callTarget => "call_target"
  | .accessMember => "access_member"
  | .accessQualifier => "access_qualifier"
  | .declaredName => "declared_name"

/-- Which form of `HostType` is meant. -/
inductive TypeTag where
  | unknown
  | void
  | named
  deriving DecidableEq, Repr

/-- The forms of types by name, in order. -/
def TypeTag.table : List (String × TypeTag) :=
  [("unknown", .unknown), ("void", .void), ("named", .named)]

/-- Which form of `Shape` is meant. -/
inductive ShapeTag where
  | call
  | construction
  | memberAccess
  | identifier
  deriving DecidableEq, Repr

/-- The forms of nodes by name, in order. -/
def ShapeTag.table : List (String × ShapeTag) :=
  [("call", .call), ("construction", .construction), ("member_access", .memberAccess),
   ("identifier", .identifier)]

/-! ## Decoding -/

namespace HostType

/-- The fields of a named type, in order. -/
def fieldNames : List String :=
  ["fqn", "name", "dims"]

/-- A named type from its fields. -/
def ofRecord? (r : Record) : Option HostType :=
  return .named
    (← r.get? "fqn" (Json.orNull? Json.text?) none)
    (← r.get? "name" (Json.orNull? Json.text?) none)
    (← r.get? "dims" Json.count? 0)

/-- Decodes a type. As an object, its tag may stand anywhere, and only a named type
looks at the other members; as an array, the tag comes first. -/
def ofJson? : Json → Option HostType
  | .object members => do
    let tag ← (← Record.ofMembers? ["kind"] members).need? "kind" (Json.tag? TypeTag.table)
    match tag with
    | .unknown => return .unknown
    | .void => return .void
    | .named => ofRecord? (← Record.ofMembers? fieldNames members)
  | .array (first :: rest) => do
    match ← Json.tag? TypeTag.table first with
    | .unknown => if rest.isEmpty then some .unknown else none
    | .void => if rest.isEmpty then some .void else none
    | .named => ofRecord? (← Json.record? fieldNames (.array rest))
  | _ => none

end HostType

namespace Owner

/-- The fields of an owner, in order. -/
def fieldNames : List String :=
  ["fqcn", "is_type"]

/-- Decodes an owner. -/
def ofJson? (j : Json) : Option Owner := do
  let r ← j.record? fieldNames
  return {
    fqcn := ← r.get? "fqcn" (Json.orNull? Json.text?) none
    isType := ← r.get? "is_type" Json.flag? true }

end Owner

namespace Symbol

/-- The fields of a symbol, in order. -/
def fieldNames : List String :=
  ["name", "kind", "owner", "is_static", "parameters", "return_type"]

/-- Decodes a symbol. -/
def ofJson? (j : Json) : Option Symbol := do
  let r ← j.record? fieldNames
  return {
    name := ← r.need? "name" Json.text?
    kind := ← r.need? "kind" (Json.choice? Json.isNothing SymbolKind.table)
    owner := ← r.get? "owner" (Json.orNull? Owner.ofJson?) none
    isStatic := ← r.get? "is_static" Json.flag? false
    parameters := ← r.get? "parameters" (Json.list? HostType.ofJson?) []
    returnType := ← r.get? "return_type" HostType.ofJson? .void }

end Symbol

namespace Node

/-- The fields of a node. -/
def fieldNames : List String :=
  ["line", "column", "kind", "symbol"]

/-- How deep arrays and objects may be nested in a node, itself included. With the
two levels around the nodes there are at most 127. -/
def maxHeight : Nat :=
  125

/-- The shape of a node from its tag. Only an identifier looks for a role. -/
def shapeOf? (members : List (StringValue × Json)) (symbol : Option Symbol) :
    ShapeTag → Option Shape
  | .call => some (.call symbol)
  | .construction => some (.construction symbol)
  | .memberAccess => some (.memberAccess symbol)
  | .identifier => do
    let r ← Record.ofMembers? ["role"] members
    return .identifier symbol
      (← r.get? "role" (Json.choice? Json.isNothing Role.table) .standalone)

/-- A node from the members of an object. -/
def ofMembers? (members : List (StringValue × Json)) : Option Node := do
  let r ← Record.ofMembers? fieldNames members
  let symbol ← r.get? "symbol" (Json.orNull? Symbol.ofJson?) none
  return {
    line := ← r.need? "line" Json.count?
    column := ← r.get? "column" Json.count? 0
    shape := ← shapeOf? members symbol (← r.need? "kind" (Json.tag? ShapeTag.table)) }

/-- Decodes a node, which must be an object. -/
def ofJson? (j : Json) : Option Node :=
  match j with
  | .object members =>
    if j.isReadable && j.height ≤ maxHeight then ofMembers? members else none
  | _ => none

end Node

namespace FactFile

/-- The fields of a fact file, in order. -/
def fieldNames : List String :=
  ["file", "nodes"]

/-- Decodes a fact file. -/
def ofJson? (j : Json) : Option FactFile := do
  let r ← j.record? fieldNames
  return {
    file := ← r.need? "file" Json.text?
    nodes := ← r.get? "nodes" (Json.list? Node.ofJson?) [] }

/-- The facts of a text. -/
def parse? (text : String) : Option FactFile :=
  Json.parse? text >>= ofJson?

/-- The facts of the text of a file. -/
def parse (path text : String) : Except Error FactFile :=
  match parse? text with
  | some unit => .ok unit
  | none => .error (.facts path Json.verdict)

end FactFile

/-! ## Encoding -/

/-- Writes a type. -/
def HostType.toJson : HostType → Json
  | .unknown => .ofFields [("kind", .string "unknown")]
  | .void => .ofFields [("kind", .string "void")]
  | .named fqn name dims =>
    .ofFields
      [("kind", .string "named"), ("fqn", .ofOption .string fqn),
       ("name", .ofOption .string name), ("dims", .ofNat dims)]

/-- Writes an owner. -/
def Owner.toJson (owner : Owner) : Json :=
  .ofFields [("fqcn", .ofOption .string owner.fqcn), ("is_type", .bool owner.isType)]

/-- Writes a symbol. -/
def Symbol.toJson (s : Symbol) : Json :=
  .ofFields
    [("name", .string s.name), ("kind", .string s.kind.name),
     ("owner", .ofOption Owner.toJson s.owner), ("is_static", .bool s.isStatic),
     ("parameters", .array (s.parameters.map HostType.toJson)),
     ("return_type", s.returnType.toJson)]

/-- The fields that depend on the form of a node. -/
def Shape.fields : Shape → List (String × Json)
  | .call symbol => [("kind", .string "call"), ("symbol", .ofOption Symbol.toJson symbol)]
  | .construction symbol =>
    [("kind", .string "construction"), ("symbol", .ofOption Symbol.toJson symbol)]
  | .memberAccess symbol =>
    [("kind", .string "member_access"), ("symbol", .ofOption Symbol.toJson symbol)]
  | .identifier symbol role =>
    [("kind", .string "identifier"), ("symbol", .ofOption Symbol.toJson symbol),
     ("role", .string role.name)]

/-- Writes a node. -/
def Node.toJson (node : Node) : Json :=
  .ofFields (("line", .ofNat node.line) :: ("column", .ofNat node.column) :: node.shape.fields)

/-- Writes a fact file. -/
def FactFile.toJson (unit : FactFile) : Json :=
  .ofFields [("file", .string unit.file), ("nodes", .array (unit.nodes.map Node.toJson))]

end DeprecatedApi
