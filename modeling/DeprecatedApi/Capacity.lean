import DeprecatedApi.Analysis

/-!
# Descriptors that cannot be written

A text has fewer than `2 ^ 63` bytes. Each dimension of a reported type is a byte of its
descriptor, and a fact file can report up to `2 ^ 64 - 1` dimensions, so there are calls and
constructions whose descriptors are longer than any text. A program that has to write such a
descriptor breaks down, whatever else there is to check. Shorter texts are taken to find room in
memory.

* `Text.maxSize`: the size of the longest text.
* `MethodDescriptor.size`: the size of a descriptor, without writing it.
* `Shape.descriptor?`: the descriptor that is written to check a node.
* `FactFile.breaksDown`, `Settings.breaksDown`: whether checking a fact file, or an analysis, comes
  to a descriptor that cannot be written.
-/

namespace DeprecatedApi

/-- The size of the longest text, in bytes: one less than `2 ^ 63`. -/
def Text.maxSize : Nat :=
  9223372036854775807

/-! ## Sizes -/

/-- The size of the text of an element type, in bytes. -/
def Element.size : Element → Nat
  | .primitive _ => 1
  | .object path => path.utf8ByteSize + 2

/-- The size of the text of a field type. -/
def FieldType.size (type : FieldType) : Nat :=
  type.dims + type.element.size

/-- The size of the text of a descriptor. -/
def TypeDescriptor.size : TypeDescriptor → Nat
  | .void => 1
  | .field type => type.size

/-- The size of the texts of descriptors, one after the other. -/
def TypeDescriptor.totalSize : List TypeDescriptor → Nat
  | [] => 0
  | first :: rest => first.size + totalSize rest

/-- The size of the text of a method descriptor, with its parentheses. -/
def MethodDescriptor.size (m : MethodDescriptor) : Nat :=
  TypeDescriptor.totalSize m.parameters + 2 + (m.result.map TypeDescriptor.size).getD 0

/-! ## Breakdowns -/

/-- The descriptor that is written to check a node. Accesses and identifiers have none. -/
def Shape.descriptor? : Shape → Option MethodDescriptor
  | .call symbol => symbol.map fun s => .ofHost s.parameters (some s.returnType)
  | .construction symbol => symbol.map fun s => .ofHost s.parameters (some .void)
  | .memberAccess _ => none
  | .identifier _ _ => none

/-- Whether a node cannot be checked because its descriptor cannot be written. -/
def Shape.breaksDown (shape : Shape) : Bool :=
  shape.descriptor?.any fun m => Text.maxSize < m.size

/-- Whether a fact file cannot be checked against rules. Where there are no rules, no
descriptors are written. -/
def FactFile.breaksDown (rules : RuleSet) (unit : FactFile) : Bool :=
  !rules.isEmpty && unit.nodes.any fun node => node.shape.breaksDown

/-- Whether a fact file can be loaded, but not checked against rules. -/
def Source.breaksDown (rules : RuleSet) (source : Source) : Bool :=
  match source.load with
  | .error _ => false
  | .ok unit => unit.breaksDown rules

/-- Whether an analysis finds a fact file that cannot be checked. -/
def Settings.breaksDown (settings : Settings) (ws : Workspace) (root : String) : Bool :=
  match Discovery.gather ws root
      (settings.excludesUnder (settings.config ws root).value) with
  | .error _ => false
  | .ok files => files.any (Source.breaksDown (settings.loadRules ws root).value)

end DeprecatedApi
