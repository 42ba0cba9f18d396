/-!
# JSON values

A JSON value is a scalar, an array or an object. Objects keep their members as
written: in order, and with repeated keys.

Two kinds of scalar have a meaning that not every reader needs. A string literal
may hold the escape of half a surrogate pair, and then denotes no text; a number
may be too large for a double. Both are values here, so that a reader who ignores a
value need not mind; `Json.isReadable` says that a value has none of them inside.

* `Number`, `Scalar`, `Json`: the values.
* `Number.fitsDouble`: whether a number is read as a finite double.
* `Json.height`, `Json.isReadable`: nesting, and being fully readable.
-/

namespace DeprecatedApi

/-! ## Numbers -/

/-- A number literal: sign, whole part, digits of the fraction, exponent. -/
structure Number where
  negative : Bool
  whole : Nat
  fraction : List Nat
  exponent : Option Int
  deriving DecidableEq, Repr

namespace Number

/-- The literal of a natural number. -/
def ofNat (n : Nat) : Number :=
  ⟨false, n, [], none⟩

/-- The largest value of an integer field: 64 bits. -/
def maxCount : Nat :=
  18446744073709551615

/-- The natural number that a literal denotes: it has neither sign, fraction nor
exponent, and at most 64 bits. -/
def count? (n : Number) : Option Nat :=
  if !n.negative && n.fraction.isEmpty && n.exponent.isNone && n.whole ≤ maxCount then
    some n.whole
  else none

/-- The decimal digits of a natural number, the most significant first. -/
def digits (n : Nat) : List Nat :=
  (Nat.toDigits 10 n).map fun c => c.toNat - '0'.toNat

/-- Appends digits to a significand of at most 64 bits while it fits, and returns
it with the number of digits that were appended. -/
def appendDigits (significand : Nat) : List Nat → Nat × Nat
  | [] => (significand, 0)
  | d :: rest =>
    if significand * 10 + d ≤ maxCount then
      let more := appendDigits (significand * 10 + d) rest
      (more.1, more.2 + 1)
    else (significand, 0)

/-- The significand of at most 64 bits and the power of ten that approximate a
literal: digits of the whole part that do not fit raise the power, digits of the
fraction that do not fit are dropped. -/
def approximation (n : Number) : Nat × Int :=
  let whole := digits n.whole
  let head := appendDigits 0 whole
  let all := appendDigits head.1 n.fraction
  (all.1, ((whole.length - head.2 : Nat) : Int) - (all.2 : Int) + n.exponent.getD 0)

/-- The nearest number with at most 53 significant bits; a tie goes to the even one. -/
def roundTo53 (x : Nat) : Nat :=
  if x < Nat.pow 2 53 then x
  else
    let unit := Nat.pow 2 (x.log2 - 52)
    let quotient := x / unit
    let excess := x % unit
    if unit < 2 * excess || (unit == 2 * excess && quotient % 2 == 1) then
      (quotient + 1) * unit
    else quotient * unit

/-- The largest power of ten that a double can hold. -/
def maxPower : Nat :=
  308

/-- The least number that is rounded to infinity: the middle between the largest
double and the next power of two. -/
def doubleLimit : Nat :=
  Nat.pow 2 1024 - Nat.pow 2 970

/-- Whether a number is read as a finite double. The significand and the power of
ten are rounded first, and their product must not round to infinity. -/
def fitsDouble (n : Number) : Bool :=
  let (significand, power) := n.approximation
  if significand = 0 || power < 0 then true
  else if (maxPower : Int) < power then false
  else roundTo53 significand * roundTo53 (Nat.pow 10 power.toNat) < doubleLimit

end Number

/-! ## Values -/

/-- The text that a string literal denotes; `none` for a literal that holds half a
surrogate pair. -/
abbrev StringValue := Option String

/-- A value without parts. -/
inductive Scalar where
  | null
  | bool (value : Bool)
  | number (value : Number)
  | string (value : StringValue)
  deriving DecidableEq, Repr

/-- A JSON value. -/
inductive Json where
  | scalar (value : Scalar)
  | array (items : List Json)
  | object (members : List (StringValue × Json))

namespace Json

/-- The value `null`. -/
@[match_pattern] abbrev null : Json := .scalar .null

/-- A truth value. -/
@[match_pattern] abbrev bool (value : Bool) : Json := .scalar (.bool value)

/-- A number. -/
@[match_pattern] abbrev number (value : Number) : Json := .scalar (.number value)

/-- A string that denotes a text. -/
@[match_pattern] abbrev string (text : String) : Json := .scalar (.string (some text))

/-- A natural number. -/
def ofNat (n : Nat) : Json :=
  .number (.ofNat n)

/-- A value that may be absent, and then is `null`. -/
def ofOption {α : Type} (encode : α → Json) : Option α → Json
  | none => .null
  | some a => encode a

/-- An object with the given members. -/
def ofFields (fields : List (String × Json)) : Json :=
  .object (fields.map fun field => (some field.1, field.2))

/-! ## Nesting -/

mutual

/-- The number of arrays and objects on the deepest way into a value. -/
def height : Json → Nat
  | .scalar _ => 0
  | .array items => heightItems items + 1
  | .object members => heightMembers members + 1

/-- The greatest height of some values. -/
def heightItems : List Json → Nat
  | [] => 0
  | item :: rest => max item.height (heightItems rest)

/-- The greatest height of the values of some members. -/
def heightMembers : List (StringValue × Json) → Nat
  | [] => 0
  | (_, value) :: rest => max value.height (heightMembers rest)

end

/-! ## Readability -/

end Json

/-- Whether a scalar denotes something: a text that exists, a number that fits a double. -/
def Scalar.isReadable : Scalar → Bool
  | .null => true
  | .bool _ => true
  | .number n => n.fitsDouble
  | .string s => s.isSome

namespace Json

mutual

/-- Whether every scalar and every key inside a value denotes something. -/
def isReadable : Json → Bool
  | .scalar s => s.isReadable
  | .array items => allReadable items
  | .object members => membersReadable members

/-- Whether all values are readable. -/
def allReadable : List Json → Bool
  | [] => true
  | item :: rest => item.isReadable && allReadable rest

/-- Whether all keys and values are readable. -/
def membersReadable : List (StringValue × Json) → Bool
  | [] => true
  | (key, value) :: rest => key.isSome && value.isReadable && membersReadable rest

end

end Json

end DeprecatedApi
