import DeprecatedApi.Json.Basic

/-!
# TOML words

Numbers, truth values, dates and times are written as words. A document is refused
if one of its words has no meaning.

* `Toml.isInteger`, `Toml.isFloat`: the forms of numbers.
* `Toml.isDateTime`: dates and times.
* `Toml.isLiteral`: numbers and truth values.
-/

namespace DeprecatedApi

namespace Toml

/-! ## Digits -/

/-- Digits without the underscores between them. An underscore must stand between
two digits. -/
def ungroup? (isDigit : Char → Bool) : List Char → Option (List Char)
  | [] => none
  | [d] => if isDigit d then some [d] else none
  | d :: '_' :: rest => if isDigit d then (ungroup? isDigit rest).map (d :: ·) else none
  | d :: rest => if isDigit d then (ungroup? isDigit rest).map (d :: ·) else none

/-- The value of a digit of any base up to sixteen. -/
def digitValue (c : Char) : Nat :=
  if c.isDigit then c.toNat - '0'.toNat
  else if 'a' ≤ c ∧ c ≤ 'f' then c.toNat - 'a'.toNat + 10
  else c.toNat - 'A'.toNat + 10

/-- The number of some digits. -/
def ofDigits (base : Nat) (ds : List Char) : Nat :=
  ds.foldl (fun n c => base * n + digitValue c) 0

/-- Whether a character is a digit of a base. -/
def isDigitOf (base : Nat) (c : Char) : Bool :=
  (c.isDigit || ('a' ≤ c && c ≤ 'f') || ('A' ≤ c && c ≤ 'F')) && digitValue c < base

/-- A word without its sign, and whether that is a minus. -/
def unsigned (word : List Char) : Bool × List Char :=
  match word with
  | '+' :: rest => (false, rest)
  | '-' :: rest => (true, rest)
  | _ => (false, word)

/-! ## Integers -/

/-- Reads a decimal number without sign; zero alone may start with a zero. -/
def decimal? (word : List Char) : Option Nat :=
  match ungroup? Char.isDigit word with
  | some ['0'] => some 0
  | some ('0' :: _) => none
  | some ds => some (ofDigits 10 ds)
  | none => none

/-- The largest integer of 64 bits with a sign. -/
def maxInteger : Nat :=
  9223372036854775807

/-- Whether a word is an integer of 64 bits. -/
def isInteger (word : List Char) : Bool :=
  let based (base : Nat) (digits : List Char) : Bool :=
    match ungroup? (isDigitOf base) digits with
    | some ds => ofDigits base ds ≤ maxInteger
    | none => false
  match word with
  | '0' :: 'x' :: rest => based 16 rest
  | '0' :: 'o' :: rest => based 8 rest
  | '0' :: 'b' :: rest => based 2 rest
  | _ =>
    let (negative, rest) := unsigned word
    match decimal? rest with
    | some n => n ≤ (if negative then maxInteger + 1 else maxInteger)
    | none => false

/-! ## Floats -/

/-- The exponent that a word ends in; an empty rest is no exponent. -/
def exponent? (cs : List Char) : Option Int :=
  match cs with
  | [] => some 0
  | mark :: rest =>
    if mark != 'e' && mark != 'E' then none
    else
      let (negative, digits) := unsigned rest
      (ungroup? Char.isDigit digits).map fun ds =>
        if negative then -(ofDigits 10 ds : Int) else ofDigits 10 ds

/-- Whether the number of some digits, times a power of ten, rounds to a finite
double. Beyond 400 digits before the point it never does. -/
def isFinite (digits : List Char) (power : Int) : Bool :=
  let n := ofDigits 10 digits
  if n = 0 then true
  else if (400 : Int) < (Nat.toDigits 10 n).length + power then false
  else if 0 ≤ power then n * Nat.pow 10 power.toNat < Number.doubleLimit
  else if (Nat.toDigits 10 n).length + power < 0 then true
  else n < Number.doubleLimit * Nat.pow 10 (-power).toNat

/-- Whether a word is a float: digits with a fraction or an exponent, infinity, or
not a number. A positive float must not be too large. -/
def isFloat (word : List Char) : Bool :=
  let (negative, rest) := unsigned word
  if rest = "inf".toList || rest = "nan".toList then true
  else
    let isBody (c : Char) : Bool := c.isDigit || c == '_'
    let whole := rest.takeWhile isBody
    let after := rest.dropWhile isBody
    if (decimal? whole).isNone || after.isEmpty then false
    else
      let fraction :=
        match after with
        | '.' :: more => ungroup? Char.isDigit (more.takeWhile isBody)
        | _ => some []
      let tail :=
        match after with
        | '.' :: more => more.dropWhile isBody
        | _ => after
      match fraction, exponent? tail with
      | some ds, some e =>
        negative || isFinite (whole.filter (· != '_') ++ ds) (e - ds.length)
      | _, _ => false

/-! ## Dates and times -/

/-- The number of two digits, if it is within bounds. -/
def twoDigits? (low high : Nat) : List Char → Option (Nat × List Char)
  | a :: b :: rest =>
    let n := ofDigits 10 [a, b]
    if a.isDigit && b.isDigit && low ≤ n && n ≤ high then some (n, rest) else none
  | _ => none

/-- The number of days of a month. -/
def daysIn (year month : Nat) : Nat :=
  if month = 2 then
    if year % 4 = 0 ∧ (year % 100 ≠ 0 ∨ year % 400 = 0) then 29 else 28
  else if month = 4 ∨ month = 6 ∨ month = 9 ∨ month = 11 then 30
  else 31

/-- What follows a mark. -/
def after? (mark : Char) : List Char → Option (List Char)
  | c :: rest => if c = mark then some rest else none
  | [] => none

/-- What follows a date. -/
def afterDate? (cs : List Char) : Option (List Char) := do
  let year := cs.take 4
  if year.length ≠ 4 || !year.all Char.isDigit then none
  let (month, rest) ← twoDigits? 1 12 (← after? '-' (cs.drop 4))
  let (_, rest) ← twoDigits? 1 (daysIn (ofDigits 10 year) month) (← after? '-' rest)
  return rest

/-- What follows a time of day. -/
def afterTime? (cs : List Char) : Option (List Char) := do
  let (_, rest) ← twoDigits? 0 23 cs
  let (_, rest) ← twoDigits? 0 59 (← after? ':' rest)
  let (_, rest) ← twoDigits? 0 60 (← after? ':' rest)
  match rest with
  | '.' :: more =>
    if (more.takeWhile Char.isDigit).isEmpty then none else some (more.dropWhile Char.isDigit)
  | _ => some rest

/-- Whether a text is an offset from universal time, or nothing. -/
def isOffset (cs : List Char) : Bool :=
  match cs with
  | [] => true
  | ['Z'] => true
  | ['z'] => true
  | sign :: rest =>
    (sign == '+' || sign == '-') &&
      (match twoDigits? 0 23 rest with
      | some (_, ':' :: minutes) => (twoDigits? 0 59 minutes).any fun found => found.2.isEmpty
      | _ => false)

/-- Whether a text is a time of day. -/
def isTime (cs : List Char) : Bool :=
  (afterTime? cs).any List.isEmpty

/-- Whether a text is a date. -/
def isDate (cs : List Char) : Bool :=
  (afterDate? cs).any List.isEmpty

/-- Whether a text is a date and a time of day, perhaps with an offset. -/
def isMoment (cs : List Char) : Bool :=
  match afterDate? cs with
  | some (mark :: rest) =>
    (mark == 'T' || mark == 't' || mark == ' ') && (afterTime? rest).any isOffset
  | _ => false

/-- Whether a word is a date, a time, or both. -/
def isDateTime (word : List Char) : Bool :=
  isDate word || isTime word || isMoment word

/-! ## Literals -/

/-- Whether a word is a truth value. -/
def isBoolean (word : List Char) : Bool :=
  word = "true".toList || word = "false".toList

/-- Whether a word is a number or a truth value. -/
def isLiteral (word : List Char) : Bool :=
  isBoolean word || isInteger word || isFloat word

end Toml

end DeprecatedApi
