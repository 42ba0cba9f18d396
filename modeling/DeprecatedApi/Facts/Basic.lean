import DeprecatedApi.Descriptor.TypeName

/-!
# Facts about source files

A host analyzer visits the nodes of a source file and reports, for each of them,
where it stands, what kind of node it is and which symbol it was resolved to. The
facts about one source file make a fact file.

* `SymbolKind`, `Owner`, `Symbol`: what a node was resolved to.
* `Role`, `Shape`, `Node`: what was visited.
* `FactFile`: all nodes of a source file.
-/

namespace DeprecatedApi

/-- The kind of a symbol. -/
inductive SymbolKind where
  | var
  | method
  | type
  | other
  deriving DecidableEq, Repr

/-- What declares a symbol. -/
structure Owner where
  /-- The fully qualified name of the declaring type, if it was resolved. -/
  fqcn : Option String
  /-- Whether a type declares the symbol; a method declares its local variables. -/
  isType : Bool
  deriving DecidableEq, Repr

/-- A symbol, as the host analyzer resolved it. -/
structure Symbol where
  name : String
  kind : SymbolKind
  owner : Option Owner
  isStatic : Bool
  parameters : List HostType
  returnType : HostType
  deriving DecidableEq, Repr

namespace Symbol

/-- The fully qualified name of the type that declares a symbol. -/
def ownerName? (s : Symbol) : Option String :=
  s.owner.bind Owner.fqcn

/-- Whether a type is known to declare a symbol. -/
def ownerIsType (s : Symbol) : Bool :=
  s.owner.any Owner.isType

end Symbol

/-- The place of an identifier in the node around it. -/
inductive Role where
  /-- The identifier stands for itself. -/
  | standalone
  /-- It names the method of a call: `foo` in `foo()`. -/
  | callTarget
  /-- It is the member of a qualified access: `b` in `a.b`. -/
  | accessMember
  /-- It is the qualifier of a qualified access: `a` in `a.b`. -/
  | accessQualifier
  /-- A declaration introduces it. -/
  | declaredName
  deriving DecidableEq, Repr

/-- What kind of node was visited, and the symbol it was resolved to. -/
inductive Shape where
  /-- A call: `api.oldMethod()`. -/
  | call (symbol : Option Symbol)
  /-- The construction of an object: `new OldApi()`. -/
  | construction (symbol : Option Symbol)
  /-- A qualified access: `Constants.OLD_VALUE`. -/
  | memberAccess (symbol : Option Symbol)
  /-- A bare identifier. -/
  | identifier (symbol : Option Symbol) (role : Role)
  deriving DecidableEq, Repr

/-- A visited node with its position. -/
structure Node where
  line : Nat
  column : Nat
  shape : Shape
  deriving DecidableEq, Repr

/-- The nodes of a source file, in the order of the visit. -/
structure FactFile where
  file : String
  nodes : List Node
  deriving DecidableEq, Repr

end DeprecatedApi
