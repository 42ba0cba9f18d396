/-!
# Descriptors

A *descriptor* is the compact text that names a type or the parameters and result
of a method: `I` is an `int`, `[I` an array of them, `Ljava/lang/String;` a class,
and `(Ljava/lang/String;[I)V` a method of two parameters without a result.

This module holds descriptors as data, together with their text.

* `Primitive`: the eight primitive types, with name and code letter.
* `Element`, `FieldType`: an element type under a number of array dimensions.
* `TypeDescriptor`: a field type, or the absence of a value.
* `MethodDescriptor`: parameters and an optional result.
* `objectDescriptor`, `dottedName?`: between dotted class names and descriptors.
-/

namespace DeprecatedApi

/-! ## Primitive types -/

/-- The primitive types. -/
inductive Primitive where
  | boolean
  | byte
  | char
  | short
  | int
  | long
  | float
  | double
  deriving DecidableEq, Repr

namespace Primitive

/-- All primitive types. -/
def all : List Primitive :=
  [.boolean, .byte, .char, .short, .int, .long, .float, .double]

/-- The name that source text uses. -/
def name : Primitive → String
  | .boolean => "boolean"
  | .byte => "byte"
  | .char => "char"
  | .short => "short"
  | .int => "int"
  | .long => "long"
  | .float => "float"
  | .double => "double"

/-- The letter that descriptors use. -/
def code : Primitive → Char
  | .boolean => 'Z'
  | .byte => 'B'
  | .char => 'C'
  | .short => 'S'
  | .int => 'I'
  | .long => 'J'
  | .float => 'F'
  | .double => 'D'

/-- The primitive type of a name. -/
def ofName? (name : String) : Option Primitive :=
  all.find? fun p => p.name == name

/-- The primitive type of a code letter. -/
def ofCode? (code : Char) : Option Primitive :=
  all.find? fun p => p.code == code

theorem mem_all (p : Primitive) : p ∈ all := by
  cases p <;> decide

@[simp] theorem ofCode?_code (p : Primitive) : ofCode? p.code = some p := by
  cases p <;> rfl

@[simp] theorem ofName?_name (p : Primitive) : ofName? p.name = some p := by
  cases p <;> decide

end Primitive

/-! ## Class names -/

/-- A class name with its dots written as slashes. -/
def slashed (cs : List Char) : List Char :=
  cs.map fun c => if c = '.' then '/' else c

/-- A class path with its slashes written as dots. -/
def dotted (cs : List Char) : List Char :=
  cs.map fun c => if c = '/' then '.' else c

/-! ## Types -/

/-- A type that is not an array: a primitive type, or a class by its slashed path. -/
inductive Element where
  | primitive (type : Primitive)
  | object (path : String)
  deriving DecidableEq, Repr

namespace Element

/-- The class that stands in for a type nobody could name. -/
def anyObject : Element :=
  .object "java/lang/Object"

/-- The class of a dotted name. -/
def ofDotted (name : List Char) : Element :=
  .object (String.ofList (slashed name))

/-- The text of an element type: a code letter, or a path between `L` and `;`. -/
def chars : Element → List Char
  | .primitive p => [p.code]
  | .object path => 'L' :: path.toList ++ [';']

end Element

/-- A type that a value can have: an element type under `dims` array dimensions. -/
structure FieldType where
  /-- The number of array dimensions. -/
  dims : Nat
  /-- What the innermost array holds. -/
  element : Element
  deriving DecidableEq, Repr

/-- The text of a field type: one `[` for each dimension, then the element type. -/
def FieldType.chars (type : FieldType) : List Char :=
  List.replicate type.dims '[' ++ type.element.chars

/-- The descriptor of one type: a field type, or `void` for no value. -/
inductive TypeDescriptor where
  | void
  | field (type : FieldType)
  deriving DecidableEq, Repr

namespace TypeDescriptor

/-- The descriptor of the class that stands in for a type nobody could name. -/
def anyObject : TypeDescriptor :=
  .field ⟨0, .anyObject⟩

/-- The text of a descriptor. -/
def chars : TypeDescriptor → List Char
  | .void => ['V']
  | .field type => type.chars

/-- The text of a descriptor, as a string. -/
def render (type : TypeDescriptor) : String :=
  String.ofList type.chars

end TypeDescriptor

/-! ## Methods -/

/-- The descriptor of a method. Without a result it stands for every method with
these parameters. -/
structure MethodDescriptor where
  /-- The parameters, in order. -/
  parameters : List TypeDescriptor
  /-- What the method returns, if that is part of the descriptor. -/
  result : Option TypeDescriptor
  deriving DecidableEq, Repr

namespace MethodDescriptor

/-- The text of the parameters: their descriptors, one after the other, in parentheses. -/
def parameterChars (m : MethodDescriptor) : List Char :=
  '(' :: m.parameters.flatMap TypeDescriptor.chars ++ [')']

/-- The text of what stands after the parameters. -/
def resultChars (m : MethodDescriptor) : List Char :=
  (m.result.map TypeDescriptor.chars).getD []

/-- The text of a method descriptor. -/
def chars (m : MethodDescriptor) : List Char :=
  m.parameterChars ++ m.resultChars

/-- The text of a method descriptor, as a string. -/
def render (m : MethodDescriptor) : String :=
  String.ofList m.chars

/-- The same parameters, whatever the result. -/
def parametersOnly (m : MethodDescriptor) : MethodDescriptor :=
  { m with result := none }

end MethodDescriptor

/-! ## Wrapping and unwrapping class names -/

/-- Wraps a dotted class name: `a.b.C` becomes `La/b/C;`. -/
def objectDescriptor (name : String) : String :=
  String.ofList (Element.ofDotted name.toList).chars

/-- Recovers the dotted class name: `La/b/C;` becomes `a.b.C`. A text that does not
stand between `L` and `;`, or has nothing in between, names no class. -/
def dottedName? (text : String) : Option String :=
  match text.toList with
  | 'L' :: rest =>
    if rest.getLast? = some ';' ∧ rest.dropLast ≠ [] then
      some (String.ofList (dotted rest.dropLast))
    else none
  | _ => none

/-- The number of leading array markers of a descriptor. -/
def arrayDimensions (text : String) : Nat :=
  (text.toList.takeWhile (· == '[')).length

end DeprecatedApi
