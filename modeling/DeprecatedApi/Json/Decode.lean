import DeprecatedApi.Json.Basic

/-!
# Decoding JSON values

A record is written as an object, whose unknown members are ignored and whose known
members may not be repeated, or as an array of its fields in order. Fields may be
missing if they have a default; from an array, only at its end.

* `Json.text?`, `Json.flag?`, `Json.count?`, `Json.orNull?`, `Json.list?`: simple values.
* `Json.choice?`, `Json.tag?`: named things.
* `Record`, `Json.record?`: the fields of a record.
* `Record.need?`, `Record.get?`: fields without and with a default.
-/

namespace DeprecatedApi

namespace Json

/-- How messages refer to a text that could not be read or decoded. -/
def verdict : String :=
  "<json>"

/-! ## Simple values -/

/-- A text. -/
def text? : Json → Option String
  | .string text => some text
  | _ => none

/-- A truth value. -/
def flag? : Json → Option Bool
  | .bool value => some value
  | _ => none

/-- A natural number of at most 64 bits. -/
def count? : Json → Option Nat
  | .number n => n.count?
  | _ => none

/-- A value that may be absent, and then is written `null`. -/
def orNull? {α : Type} (decode : Json → Option α) : Json → Option (Option α)
  | .null => some none
  | j => (decode j).map some

/-- A list of values. -/
def list? {α : Type} (decode : Json → Option α) : Json → Option (List α)
  | .array items => items.mapM decode
  | _ => none

/-- The only member of an object. -/
def single? : Json → Option (String × Json)
  | .object [(some key, value)] => some (key, value)
  | _ => none

/-! ## Names -/

/-- Whether a value is `null`. -/
def isNull : Json → Bool
  | .null => true
  | _ => false

/-- Whether a value is `null` or an empty object. -/
def isNothing : Json → Bool
  | .null => true
  | .object [] => true
  | _ => false

/-- One of some named things: its name as a text, or as the only key of an object
whose value says nothing, which `nothing` decides. -/
def choice? {α : Type} (nothing : Json → Bool) (table : List (String × α)) (j : Json) :
    Option α :=
  match j.text? with
  | some name => table.lookup name
  | none =>
    match j.single? with
    | some (name, value) => if nothing value then table.lookup name else none
    | none => none

/-- The tag of one of some named things: its name as a text, or its place in the table. -/
def tag? {α : Type} (table : List (String × α)) (j : Json) : Option α :=
  match j.text? with
  | some name => table.lookup name
  | none => j.count?.bind fun place => table[place]?.map Prod.snd

end Json

/-! ## Records -/

/-- The fields of a record that were given. -/
abbrev Record := List (String × Json)

/-- The members of an object whose keys are known; every key must denote a text,
and no known key may be repeated. -/
def Record.ofMembers? (known : List String) (members : List (StringValue × Json)) :
    Option Record := do
  let keyed ← members.mapM fun (key, value) => key.map fun text => (text, value)
  let given := keyed.filter fun field => known.contains field.1
  if (given.map Prod.fst).Nodup then some given else none

/-- The record with the known fields, from an object or an array. -/
def Json.record? (known : List String) : Json → Option Record
  | .object members => Record.ofMembers? known members
  | .array items => if items.length ≤ known.length then some (known.zip items) else none
  | .scalar _ => none

namespace Record

variable {α : Type}

/-- A field that must be given. -/
def need? (r : Record) (field : String) (decode : Json → Option α) : Option α :=
  List.lookup field r >>= decode

/-- A field that has a default. -/
def get? (r : Record) (field : String) (decode : Json → Option α) (default : α) : Option α :=
  match List.lookup field r with
  | none => some default
  | some value => decode value

end Record

end DeprecatedApi
