import DeprecatedApi.Descriptor.TypeName

/-!
# Argument lists as source text writes them

An argument list is a parenthesized list of type names, such as
`(java.lang.String, Map<K, V>[])`. Its commas separate types, except for those
inside type arguments.

* `ArgumentList.splitTopLevel`: the parts between the separating commas.
* `ArgumentList.parse`: the method descriptor that a list denotes.
* `sourceArguments`: its text.
-/

namespace DeprecatedApi

namespace ArgumentList

/-! ## Separating commas -/

/-- The nesting depth of type arguments after one more character. A `>` without a
`<` before it changes nothing. -/
def depthAfter (depth : Nat) (c : Char) : Nat :=
  if c = '<' then depth + 1 else if c = '>' then depth - 1 else depth

/-- Puts a character in front of the first part. -/
def consHead (c : Char) : List (List Char) → List (List Char)
  | [] => [[c]]
  | part :: parts => (c :: part) :: parts

/-- Splits a text, whose first character stands at nesting depth `depth`, at the
commas of depth zero. -/
def splitFrom (depth : Nat) : List Char → List (List Char)
  | [] => [[]]
  | c :: rest =>
    if c = ',' ∧ depth = 0 then [] :: splitFrom 0 rest
    else consHead c (splitFrom (depthAfter depth c) rest)

/-- The parts of a text between its commas outside type arguments. -/
def splitTopLevel (cs : List Char) : List (List Char) :=
  splitFrom 0 cs

/-! ## Denotation -/

/-- Why a text is no argument list. -/
inductive Fault where
  /-- The text does not stand in parentheses. -/
  | unparenthesized (text : String)
  /-- There is nothing before, after or between commas. -/
  | emptyType (text : String)
  deriving DecidableEq, Repr

/-- What a fault is called. -/
def Fault.message : Fault → String
  | .unparenthesized text => "arguments must be a parenthesized type list, got `" ++ text ++ "`"
  | .emptyType text => "empty type in arguments `" ++ text ++ "`"

/-- What stands between the parentheses of a text. -/
def inner? (cs : List Char) : Option (List Char) :=
  match Text.trimChars cs with
  | '(' :: rest => if rest.getLast? = some ')' then some rest.dropLast else none
  | _ => none

/-- The type names of a list: none if there is nothing in the parentheses. -/
def parts (inner : List Char) : List (List Char) :=
  if inner.all Text.isBlank then [] else splitTopLevel inner

/-- The method descriptor that an argument list denotes; it has no result. -/
def parse (text : String) : Except Fault MethodDescriptor :=
  match inner? text.toList with
  | none => .error (.unparenthesized text)
  | some inner =>
    if (parts inner).any (·.all Text.isBlank) then .error (.emptyType text)
    else .ok ⟨(parts inner).map fun part => .field (TypeName.fieldType part 0), none⟩

end ArgumentList

/-- The descriptor of an argument list: `(java.lang.String, int[])` becomes
`(Ljava/lang/String;[I)`. -/
def sourceArguments (text : String) : Except ArgumentList.Fault String :=
  (ArgumentList.parse text).map MethodDescriptor.render

end DeprecatedApi
