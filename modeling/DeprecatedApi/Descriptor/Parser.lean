import DeprecatedApi.Descriptor.Basic

/-!
# Reading descriptors

A method descriptor is `(`, any number of field types, `)`, and then nothing, `V`
or one field type. Field types follow each other without a separator: a field type
is any number of `[` and then a code letter, or `L`, a non-empty path and `;`.

* `FieldReader`: reads field types one character at a time.
* `MethodDescriptor.parse?`: the descriptor that a text denotes.
* `isDescriptor`: whether a text denotes one.
* `parameterSection?`, `isParameterOnly`: where the parameters end, on any text.
-/

namespace DeprecatedApi

/-! ## Field types -/

/-- Whether a character may stand in the path of a class. -/
def isPathChar (c : Char) : Bool :=
  c != ';' && c != '(' && c != ')' && c != '['

/-- What has been read of a sequence of field types. -/
structure FieldReader where
  /-- The finished field types, the latest first. -/
  fields : List FieldType
  /-- The array markers since the last finished one. -/
  dims : Nat
  /-- Inside a class, the part of the path that has been read, the latest character first. -/
  path : Option (List Char)

namespace FieldReader

/-- Nothing has been read. -/
def start : FieldReader :=
  ⟨[], 0, none⟩

/-- Ends the current field type with its element. -/
def finish (r : FieldReader) (element : Element) : FieldReader :=
  ⟨⟨r.dims, element⟩ :: r.fields, 0, none⟩

/-- Reads one more character. -/
def step (r : FieldReader) (c : Char) : Option FieldReader :=
  match r.path with
  | some path =>
    if c = ';' then
      if path.isEmpty then none else some (r.finish (.object (String.ofList path.reverse)))
    else if isPathChar c then some { r with path := some (c :: path) }
    else none
  | none =>
    if c = '[' then some { r with dims := r.dims + 1 }
    else if c = 'L' then some { r with path := some [] }
    else (Primitive.ofCode? c).map fun p => r.finish (.primitive p)

/-- The field types read, unless one is unfinished. -/
def result? (r : FieldReader) : Option (List FieldType) :=
  if r.dims = 0 ∧ r.path.isNone then some r.fields.reverse else none

end FieldReader

/-- Reads a text that consists of field types. -/
def readFields? (cs : List Char) : Option (List FieldType) :=
  cs.foldlM FieldReader.step FieldReader.start >>= FieldReader.result?

/-! ## Methods -/

namespace MethodDescriptor

/-- Reads what stands after the parameters. -/
def readResult? (cs : List Char) : Option (Option TypeDescriptor) :=
  if cs.isEmpty then some none
  else if cs = ['V'] then some (some .void)
  else
    match readFields? cs with
    | some [type] => some (some (.field type))
    | _ => none

/-- Reads a method descriptor. -/
def parseChars? : List Char → Option MethodDescriptor
  | '(' :: rest =>
    match rest.dropWhile (· != ')') with
    | [] => none
    | _ :: after => do
      let parameters ← readFields? (rest.takeWhile (· != ')'))
      let result ← readResult? after
      return ⟨parameters.map .field, result⟩
  | _ => none

/-- The method descriptor that a text denotes. -/
def parse? (text : String) : Option MethodDescriptor :=
  parseChars? text.toList

end MethodDescriptor

/-- Whether a text is a method descriptor, with or without a result. -/
def isDescriptor (text : String) : Bool :=
  (MethodDescriptor.parse? text).isSome

/-! ## Sections of a text that may be no descriptor -/

/-- The part from the opening parenthesis at the start to the first closing one. -/
def parameterSectionChars? : List Char → Option (List Char)
  | '(' :: rest =>
    if rest.contains ')' then some ('(' :: rest.takeWhile (· != ')') ++ [')']) else none
  | _ => none

/-- The parameter section of a text, if it starts with one. -/
def parameterSection? (text : String) : Option String :=
  (parameterSectionChars? text.toList).map String.ofList

/-- Whether a text starts and ends with parentheses, and so names no result. -/
def isParameterOnly (text : String) : Bool :=
  text.toList.head? == some '(' && text.toList.getLast? == some ')'

end DeprecatedApi
