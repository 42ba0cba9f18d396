import DeprecatedApi.Json.Lexer

/-!
# TOML strings

Strings stand in quotes or apostrophes, on one line or, with three of them, on
several. Between quotes a backslash starts an escape; between apostrophes every
character stands for itself. Line breaks are single line feeds here.

* `Toml.lineString?`: a string on one line, after its opening mark.
* `Toml.blockString?`: a string on several lines, after its opening marks.
* `Toml.string?`: any string.
-/

namespace DeprecatedApi

namespace Toml

/-- Whether a character may stand in strings and comments: no control character but
the tabulator. -/
def isTextChar (c : Char) : Bool :=
  c == '\t' || (0x20 ≤ c.toNat && c.toNat != 0x7F)

/-- The character that a short escape denotes, by the letter after the backslash. -/
def escape? (c : Char) : Option Char :=
  if c = '/' then none else shortEscape? c

/-- The number of hexadecimal digits of a numeric escape, by the letter after the
backslash. -/
def escapeWidth? (c : Char) : Option Nat :=
  if c = 'u' then some 4 else if c = 'U' then some 8 else none

/-- The character of a code point. -/
def charOf? (code : Nat) : Option Char :=
  if code.isValidChar then some (Char.ofNat code) else none

/-- Where in a string the reader stands. -/
inductive Spot where
  /-- Where any character may follow. -/
  | text
  /-- After a backslash. -/
  | escape
  /-- In a numeric escape of which `left` more digits must come. -/
  | code (left value : Nat)
  /-- After a backslash and blanks; the line must end. -/
  | lineEnd
  /-- After the end of a line with a backslash; blanks and further line ends are skipped. -/
  | skip
  /-- After some closing marks in a row. -/
  | marks (count : Nat)
  deriving DecidableEq, Repr

/-- Reads a character after a backslash or in a numeric escape, and returns the
character it completes, if any, with the next spot. -/
def readEscape (spot : Spot) (c : Char) : Option (Option Char × Spot) :=
  match spot with
  | .code left value => do
    let value := 16 * value + (← hexDigit? c)
    if left ≤ 1 then return (some (← charOf? value), .text)
    else return (none, .code (left - 1) value)
  | _ =>
    match escapeWidth? c with
    | some width => some (none, .code width 0)
    | none => (escape? c).map fun e => (some e, .text)

/-- Reads a string on one line, up to and with its closing mark. What has been read
is held with the latest character first. -/
def lineFrom (mark : Char) (read : List Char) : Spot → List Char → Option (String × List Char)
  | _, [] => none
  | .text, c :: rest =>
    if c = mark then some (String.ofList read.reverse, rest)
    else if c = '\\' ∧ mark = '"' then lineFrom mark read .escape rest
    else if isTextChar c then lineFrom mark (c :: read) .text rest
    else none
  | spot, c :: rest =>
    match readEscape spot c with
    | none => none
    | some (none, spot) => lineFrom mark read spot rest
    | some (some e, spot) => lineFrom mark (e :: read) spot rest

/-- Reads a string on several lines, up to and with its closing marks. One or two
marks in a row belong to the string, and so do the first one or two of four or five. -/
def blockFrom (mark : Char) (read : List Char) : Spot → List Char → Option (String × List Char)
  | .marks count, [] =>
    if 3 ≤ count then some (String.ofList (List.replicate (count - 3) mark ++ read).reverse, [])
    else none
  | _, [] => none
  | .marks count, c :: rest =>
    if c = mark then
      if 4 ≤ count then some (String.ofList (mark :: mark :: read).reverse, rest)
      else blockFrom mark read (.marks (count + 1)) rest
    else if 3 ≤ count then
      some (String.ofList (List.replicate (count - 3) mark ++ read).reverse, c :: rest)
    else
      let read := List.replicate count mark ++ read
      if c = '\\' ∧ mark = '"' then blockFrom mark read .escape rest
      else if isTextChar c || c == '\n' then blockFrom mark (c :: read) .text rest
      else none
  | .lineEnd, c :: rest =>
    if c = '\n' then blockFrom mark read .skip rest
    else if c = ' ' ∨ c = '\t' then blockFrom mark read .lineEnd rest
    else none
  | .escape, c :: rest =>
    if c = '\n' then blockFrom mark read .skip rest
    else if c = ' ' ∨ c = '\t' then blockFrom mark read .lineEnd rest
    else
      match readEscape .escape c with
      | none => none
      | some (none, spot) => blockFrom mark read spot rest
      | some (some e, spot) => blockFrom mark (e :: read) spot rest
  | .code left value, c :: rest =>
    match readEscape (.code left value) c with
    | none => none
    | some (none, spot) => blockFrom mark read spot rest
    | some (some e, spot) => blockFrom mark (e :: read) spot rest
  | spot, c :: rest =>
    if spot = .skip ∧ (c = ' ' ∨ c = '\t' ∨ c = '\n') then blockFrom mark read .skip rest
    else if c = mark then blockFrom mark read (.marks 1) rest
    else if c = '\\' ∧ mark = '"' then blockFrom mark read .escape rest
    else if isTextChar c || c == '\n' then blockFrom mark (c :: read) .text rest
    else none

/-- Reads a string on one line, after its opening mark. -/
def lineString? (mark : Char) (cs : List Char) : Option (String × List Char) :=
  lineFrom mark [] .text cs

/-- Reads a string on several lines, after its opening marks. A line break right
after them does not belong to the string. -/
def blockString? (mark : Char) (cs : List Char) : Option (String × List Char) :=
  match cs with
  | '\n' :: rest => blockFrom mark [] .text rest
  | _ => blockFrom mark [] .text cs

/-- Reads a string, after its opening mark. Two further marks open a string on
several lines. -/
def string? (mark : Char) (cs : List Char) : Option (String × List Char) :=
  match cs with
  | a :: b :: rest =>
    if a = mark ∧ b = mark then blockString? mark rest else lineString? mark cs
  | _ => lineString? mark cs

end Toml

end DeprecatedApi
