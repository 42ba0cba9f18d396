import DeprecatedApi.Json.Basic

/-!
# JSON tokens

The text of a JSON value is a sequence of tokens: six punctuation marks and
scalars, with blanks anywhere between them. Tokens are read one character at a
time. A word (a number or one of `null`, `true`, `false`) goes on to the next
blank, punctuation mark or quote; a string goes on to its closing quote.

* `Token`: the tokens.
* `Number.parse?`: the number that a word denotes.
* `Surrogate.decode`: the text of a sequence of code units.
* `Lexer.step`, `Token.scan?`: reading tokens.
-/

namespace DeprecatedApi

/-- A token of JSON text. -/
inductive Token where
  | openArray
  | closeArray
  | openObject
  | closeObject
  | comma
  | colon
  | scalar (value : Scalar)
  deriving DecidableEq, Repr

/-! ## Words -/

namespace Number

/-- The natural number of a sequence of decimal digits. -/
def ofDigits (ds : List Char) : Nat :=
  Nat.ofDigitChars 10 ds 0

/-- Whether digits may stand before the point: there is one, and a zero stands alone. -/
def isWhole (ds : List Char) : Bool :=
  match ds with
  | [] => false
  | ['0'] => true
  | '0' :: _ => false
  | _ => true

/-- Reads an exponent to the end of the word; an empty rest is no exponent. -/
def parseExponent? (cs : List Char) : Option (Option Int) :=
  match cs with
  | [] => some none
  | mark :: rest =>
    if mark != 'e' && mark != 'E' then none
    else
      let negative := rest.head? == some '-'
      let ds := if negative || rest.head? == some '+' then rest.tail else rest
      if ds.isEmpty || !ds.all Char.isDigit then none
      else some (some (if negative then -(ofDigits ds : Int) else ofDigits ds))

/-- Reads the number of a word. -/
def parse? (word : List Char) : Option Number :=
  let negative := word.head? == some '-'
  let cs := if negative then word.tail else word
  let whole := cs.takeWhile Char.isDigit
  let after := cs.dropWhile Char.isDigit
  if !isWhole whole then none
  else
    match after with
    | '.' :: rest =>
      let fraction := rest.takeWhile Char.isDigit
      if fraction.isEmpty then none
      else
        (parseExponent? (rest.dropWhile Char.isDigit)).map fun e =>
          ⟨negative, ofDigits whole, fraction.map fun c => c.toNat - '0'.toNat, e⟩
    | _ => (parseExponent? after).map fun e => ⟨negative, ofDigits whole, [], e⟩

end Number

/-- The scalar of a word. -/
def Scalar.ofWord? (word : List Char) : Option Scalar :=
  if word = "null".toList then some .null
  else if word = "true".toList then some (.bool true)
  else if word = "false".toList then some (.bool false)
  else (Number.parse? word).map .number

/-! ## Strings -/

namespace Surrogate

/-- Whether a code unit is the first half of a surrogate pair. -/
def isHigh (unit : Nat) : Bool :=
  0xD800 ≤ unit && unit ≤ 0xDBFF

/-- Whether a code unit is the second half of a surrogate pair. -/
def isLow (unit : Nat) : Bool :=
  0xDC00 ≤ unit && unit ≤ 0xDFFF

/-- The code point of a surrogate pair. -/
def combine (high low : Nat) : Nat :=
  0x10000 + (high - 0xD800) * 0x400 + (low - 0xDC00)

/-- The text of a sequence of code points and surrogate halves. Each half must
stand in a pair. -/
def decode : List Nat → Option (List Char)
  | [] => some []
  | unit :: rest =>
    if isHigh unit then
      match rest with
      | low :: rest =>
        if isLow low then (decode rest).map (Char.ofNat (combine unit low) :: ·) else none
      | [] => none
    else if isLow unit then none
    else (decode rest).map (Char.ofNat unit :: ·)

end Surrogate

/-- The value of a hexadecimal digit. -/
def hexDigit? (c : Char) : Option Nat :=
  if c.isDigit then some (c.toNat - '0'.toNat)
  else if 'a' ≤ c ∧ c ≤ 'f' then some (c.toNat - 'a'.toNat + 10)
  else if 'A' ≤ c ∧ c ≤ 'F' then some (c.toNat - 'A'.toNat + 10)
  else none

/-- The character that a short escape denotes, by the letter after the backslash. -/
def shortEscape? (c : Char) : Option Char :=
  if c = '"' ∨ c = '\\' ∨ c = '/' then some c
  else if c = 'b' then some '\x08'
  else if c = 'f' then some '\x0c'
  else if c = 'n' then some '\n'
  else if c = 'r' then some '\r'
  else if c = 't' then some '\t'
  else none

/-! ## Reading tokens -/

namespace Lexer

/-- Where in a token the reader stands. Lists hold the latest first. -/
inductive Mode where
  /-- Between two tokens. -/
  | between
  /-- In a word. -/
  | word (chars : List Char)
  /-- In a string, with its code points so far. -/
  | string (units : List Nat)
  /-- In a string, after a backslash. -/
  | escape (units : List Nat)
  /-- In a string, in a numeric escape of which `left` more digits must come. -/
  | code (units : List Nat) (left value : Nat)
  deriving DecidableEq, Repr

/-- The tokens read, the latest first, and the current one. -/
structure State where
  tokens : List Token
  mode : Mode
  deriving DecidableEq, Repr

/-- Nothing has been read. -/
def State.start : State :=
  ⟨[], .between⟩

/-- Blanks between tokens. -/
def isGap (c : Char) : Bool :=
  c == ' ' || c == '\t' || c == '\n' || c == '\r'

/-- The token of a punctuation mark. -/
def punctuation? (c : Char) : Option Token :=
  if c = '[' then some .openArray
  else if c = ']' then some .closeArray
  else if c = '\x7b' then some .openObject
  else if c = '\x7d' then some .closeObject
  else if c = ',' then some .comma
  else if c = ':' then some .colon
  else none

/-- Whether a word ends before a character. -/
def endsWord (c : Char) : Bool :=
  isGap c || (punctuation? c).isSome || c == '"'

/-- Reads a character between two tokens. -/
def fromBetween (tokens : List Token) (c : Char) : State :=
  if isGap c then ⟨tokens, .between⟩
  else
    match punctuation? c with
    | some token => ⟨token :: tokens, .between⟩
    | none => if c = '"' then ⟨tokens, .string []⟩ else ⟨tokens, .word [c]⟩

/-- Ends a word. -/
def endWord (tokens : List Token) (chars : List Char) : Option (List Token) :=
  (Scalar.ofWord? chars.reverse).map fun s => .scalar s :: tokens

/-- Ends a string. -/
def endString (tokens : List Token) (units : List Nat) : List Token :=
  .scalar (.string ((Surrogate.decode units.reverse).map String.ofList)) :: tokens

/-- Reads one more character. -/
def step (s : State) (c : Char) : Option State :=
  match s.mode with
  | .between => some (fromBetween s.tokens c)
  | .word chars =>
    if endsWord c then (endWord s.tokens chars).map fun tokens => fromBetween tokens c
    else some ⟨s.tokens, .word (c :: chars)⟩
  | .string units =>
    if c = '"' then some ⟨endString s.tokens units, .between⟩
    else if c = '\\' then some ⟨s.tokens, .escape units⟩
    else if c.toNat < 0x20 then none
    else some ⟨s.tokens, .string (c.toNat :: units)⟩
  | .escape units =>
    if c = 'u' then some ⟨s.tokens, .code units 4 0⟩
    else (shortEscape? c).map fun e => ⟨s.tokens, .string (e.toNat :: units)⟩
  | .code units left value =>
    (hexDigit? c).map fun d =>
      if left ≤ 1 then ⟨s.tokens, .string ((16 * value + d) :: units)⟩
      else ⟨s.tokens, .code units (left - 1) (16 * value + d)⟩

/-- The tokens read, unless one is unfinished. -/
def result? (s : State) : Option (List Token) :=
  match s.mode with
  | .between => some s.tokens.reverse
  | .word chars => (endWord s.tokens chars).map List.reverse
  | _ => none

end Lexer

/-- The tokens of a text. -/
def Token.scan? (cs : List Char) : Option (List Token) :=
  cs.foldlM Lexer.step Lexer.State.start >>= Lexer.result?

end DeprecatedApi
