import DeprecatedApi.Facts.Basic

/-!
# References to members

A node that uses a member refers to it by the declaring type, the name of the
member and, for calls and constructions, a method descriptor. Nodes that use
nothing, or whose use another node reports, refer to nothing.

* `Reference`: the canonical identity of a used member.
* `Shape.reference?`: the member that a node uses.
-/

namespace DeprecatedApi

/-- The canonical identity of a used member. -/
structure Reference where
  /-- The declaring type; without one, no rule applies. -/
  owner : Option String
  member : String
  /-- The method descriptor of a call or construction. -/
  signature : Option String
  deriving DecidableEq, Repr

/-- The member name of constructors. -/
def constructorMember : String :=
  "<init>"

namespace Symbol

/-- The reference of a call. -/
def callReference (s : Symbol) : Reference :=
  ⟨s.ownerName?, s.name, some (methodDescriptor s.parameters s.returnType)⟩

/-- The reference of a construction. -/
def constructionReference (s : Symbol) : Reference :=
  ⟨s.ownerName?, constructorMember, some (constructorDescriptor s.parameters)⟩

/-- The reference of an access to a variable. -/
def accessReference (s : Symbol) : Reference :=
  ⟨s.ownerName?, s.name, none⟩

/-- Whether a symbol is a variable. -/
def isVariable (s : Symbol) : Bool :=
  s.kind == .var

/-- Whether a bare identifier can name a symbol of another type: a static variable
that a type owns. -/
def isStaticField (s : Symbol) : Bool :=
  s.isVariable && s.isStatic && s.ownerIsType

end Symbol

/-- Whether an identifier at this place is no use of its own: another node reports
it, or it is a declaration. -/
def Role.isCoveredElsewhere : Role → Bool
  | .callTarget => true
  | .accessMember => true
  | .declaredName => true
  | .standalone => false
  | .accessQualifier => false

/-- The member that a node uses. -/
def Shape.reference? : Shape → Option Reference
  | .call symbol => symbol.map Symbol.callReference
  | .construction symbol => symbol.map Symbol.constructionReference
  | .memberAccess symbol => (symbol.filter Symbol.isVariable).map Symbol.accessReference
  | .identifier symbol role =>
    if role.isCoveredElsewhere then none
    else (symbol.filter Symbol.isStaticField).map Symbol.accessReference

end DeprecatedApi
