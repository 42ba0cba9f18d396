import DeprecatedApi.Descriptor.Basic
import DeprecatedApi.Text.Blank

/-!
# Descriptors of written type names

Source text and host analyzers name types as people write them:
`java.util.List<String>[]`, `int...`, `byte [] []`. A written name denotes a field
type: each trailing `[]` or `...` is one array dimension, type arguments are
erased, and what is left names a primitive type or a class. A name that leaves
nothing denotes the class of all objects.

* `TypeName.fieldType`: the field type of a written name.
* `nameDescriptor`: its descriptor as text.
* `HostType`: a type as a host analyzer reports it, with `HostType.descriptor`.
-/

namespace DeprecatedApi

namespace TypeName

/-! ## Array markers and type arguments -/

/-- Counts one more marker. -/
def addMarker (found : Nat × List Char) : Nat × List Char :=
  (found.1 + 1, found.2)

/-- Takes array markers off the end of a name, with the blank characters before and
between them. The name is given, and what is left of it returned, from its last
character to its first; the number of markers comes with it. -/
def stripMarkers : List Char → Nat × List Char
  | ']' :: '[' :: rest => addMarker (stripMarkers rest)
  | '.' :: '.' :: '.' :: rest => addMarker (stripMarkers rest)
  | c :: rest => if Text.isBlank c then stripMarkers rest else (0, c :: rest)
  | [] => (0, [])

/-- The number of array markers at the end of a name. -/
def markerCount (name : List Char) : Nat :=
  (stripMarkers (Text.trimChars name).reverse).1

/-- A name without its array markers. -/
def withoutMarkers (name : List Char) : List Char :=
  (stripMarkers (Text.trimChars name).reverse).2.reverse

/-- A name without its type arguments: they start at the first `<`. -/
def erased (name : List Char) : List Char :=
  Text.trimEnd (name.takeWhile (· != '<'))

/-- The name of the element type. -/
def elementName (name : List Char) : List Char :=
  erased (withoutMarkers name)

/-! ## Denotation -/

/-- The element type of a bare name. -/
def element (name : List Char) : Element :=
  if name.isEmpty then .anyObject
  else
    match Primitive.ofName? (String.ofList name) with
    | some p => .primitive p
    | none => .ofDotted name

/-- The field type of a written name, under `extra` further dimensions. -/
def fieldType (name : List Char) (extra : Nat) : FieldType :=
  ⟨extra + markerCount name, element (elementName name)⟩

end TypeName

/-- The descriptor of a written name, under `extra` further dimensions. -/
def nameDescriptor (name : String) (extra : Nat) : String :=
  String.ofList (TypeName.fieldType name.toList extra).chars

/-! ## Types reported by a host analyzer -/

/-- A type as a host analyzer reports it. -/
inductive HostType where
  /-- The analyzer could not resolve the type. -/
  | unknown
  /-- There is no value. -/
  | void
  /-- A type with a fully qualified name, a simple name, or both, and the array
  dimensions that the names do not show. -/
  | named (fqn name : Option String) (dims : Nat)
  deriving DecidableEq, Repr

namespace HostType

/-- The name that counts: the fully qualified one, or else the simple one, without
blank characters at the ends; a blank name is no name. -/
def chosenName? (fqn name : Option String) : Option String :=
  ([fqn, name].filterMap fun given => given.map Text.trim).find? (· != "")

/-- The descriptor of a reported type. A type without a name denotes the class of
all objects, and the name `void` without dimensions denotes no value. -/
def descriptor : HostType → TypeDescriptor
  | .unknown => .anyObject
  | .void => .void
  | .named fqn name dims =>
    let chosen := (chosenName? fqn name).getD ""
    if chosen = "void" ∧ dims = 0 then .void
    else .field (TypeName.fieldType chosen.toList dims)

end HostType

/-! ## Methods and constructors -/

/-- The descriptor of a method from its reported types. -/
def MethodDescriptor.ofHost (parameters : List HostType) (result : Option HostType) :
    MethodDescriptor :=
  ⟨parameters.map HostType.descriptor, result.map HostType.descriptor⟩

/-- The text of a parameter list. -/
def parameterDescriptor (parameters : List HostType) : String :=
  (MethodDescriptor.ofHost parameters none).render

/-- The text of a method's descriptor. -/
def methodDescriptor (parameters : List HostType) (result : HostType) : String :=
  (MethodDescriptor.ofHost parameters (some result)).render

/-- The text of a constructor's descriptor; a constructor has no result. -/
def constructorDescriptor (parameters : List HostType) : String :=
  methodDescriptor parameters .void

end DeprecatedApi
