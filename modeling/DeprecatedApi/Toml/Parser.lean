import DeprecatedApi.Toml.Basic
import DeprecatedApi.Toml.Quoted
import DeprecatedApi.Toml.Word

/-!
# Reading TOML documents

A document is a sequence of statements: keys with values, table headers and array
headers. The statements are read first, and then take effect one after the other.

Readers take characters from the front of a text and return what they read with the
rest. Nesting of values and the length of keys are limited to `Toml.maxDepth`; the
readers that repeat themselves carry a `fuel` of which each round takes one, and
which the length of the text bounds.

* `Toml.key?`, `Toml.value?`, `Toml.Statement`, `Toml.statements?`: the readers.
* `Toml.parse?`: the document of a text.
-/

namespace DeprecatedApi

namespace Toml

/-- How deep values may be nested, and how many parts a key may have. -/
def maxDepth : Nat :=
  79

/-! ## Blanks and comments -/

/-- Drops blanks on a line. -/
def skipBlanks (cs : List Char) : List Char :=
  cs.dropWhile fun c => c == ' ' || c == '\t'

/-- Reads a comment to the end of its line, which stays. -/
def skipComment? (cs : List Char) : Option (List Char) :=
  match cs with
  | '#' :: rest =>
    match rest.dropWhile isTextChar with
    | [] => some []
    | '\n' :: more => some ('\n' :: more)
    | _ => none
  | _ => some cs

/-- Reads the rest of a line: blanks, a comment, and the end of the line or text. -/
def endOfLine? (cs : List Char) : Option (List Char) :=
  match skipComment? (skipBlanks cs) with
  | some [] => some []
  | some ('\n' :: rest) => some rest
  | _ => none

/-- Drops blanks, comments and line breaks. -/
def skipLines? : Nat → List Char → Option (List Char)
  | 0, _ => none
  | fuel + 1, cs =>
    match skipBlanks cs with
    | '\n' :: rest => skipLines? fuel rest
    | '#' :: rest => (skipComment? ('#' :: rest)).bind (skipLines? fuel)
    | rest => some rest

/-! ## Keys -/

/-- Whether a character may stand in a key without quotes. -/
def isBareChar (c : Char) : Bool :=
  c.isAlphanum || c == '_' || c == '-'

/-- Reads one part of a key. -/
def keyPart? (cs : List Char) : Option (String × List Char) :=
  match cs with
  | '"' :: rest => lineString? '"' rest
  | '\'' :: rest => lineString? '\'' rest
  | _ =>
    let bare := cs.takeWhile isBareChar
    if bare.isEmpty then none else some (String.ofList bare, cs.dropWhile isBareChar)

/-- Reads a key: parts with dots between them, and blanks around both. -/
def keyParts? : Nat → List Char → Option (List String × List Char)
  | 0, _ => none
  | fuel + 1, cs => do
    let (part, rest) ← keyPart? (skipBlanks cs)
    match skipBlanks rest with
    | '.' :: more =>
      let (parts, rest) ← keyParts? fuel more
      return (part :: parts, rest)
    | rest => return ([part], rest)

/-- Reads a key of limited length. -/
def key? (cs : List Char) : Option (List String × List Char) :=
  keyParts? maxDepth cs

/-! ## Values -/

/-- Whether a character may stand in a word. -/
def isWordChar (c : Char) : Bool :=
  c.isAlphanum || c == '+' || c == '-' || c == '_' || c == '.' || c == ':'

/-- The word that a text begins with. A date and a time of day may be one word with
a space in it. -/
def splitWord (cs : List Char) : List Char × List Char :=
  let word := cs.takeWhile isWordChar
  let rest := cs.dropWhile isWordChar
  match rest with
  | ' ' :: more =>
    let time := more.takeWhile isWordChar
    if isDate word && !time.isEmpty then
      (word ++ ' ' :: time, more.dropWhile isWordChar)
    else (word, rest)
  | _ => (word, rest)

/-- Reads a word. -/
def word? (cs : List Char) : Option (Value × List Char) :=
  let (word, rest) := splitWord cs
  if isLiteral word then some (.literal (String.ofList word), rest)
  else if isDateTime word then some (.moment (String.ofList word), rest)
  else none

mutual

/-- Reads a value, inside of which values may be nested `depth` levels deep. -/
def valueFrom? : (fuel depth : Nat) → List Char → Option (Value × List Char)
  | 0, _, _ => none
  | fuel + 1, depth, cs =>
    match cs with
    | '"' :: rest => (string? '"' rest).map fun found => (.string found.1, found.2)
    | '\'' :: rest => (string? '\'' rest).map fun found => (.string found.1, found.2)
    | '[' :: rest =>
      if depth = 0 then none
      else (itemsFrom? fuel (depth - 1) rest).map fun found => (.array found.1, found.2)
    | '\x7b' :: rest =>
      if depth = 0 then none
      else
        match skipBlanks rest with
        | '\x7d' :: more => some (.table .inline [], more)
        | _ =>
          (entriesFrom? fuel (depth - 1) [] rest).map fun found =>
            (.table .inline found.1, found.2)
    | _ => word? cs

/-- Reads the items of an array, and its closing bracket. -/
def itemsFrom? : (fuel depth : Nat) → List Char → Option (List Value × List Char)
  | 0, _, _ => none
  | fuel + 1, depth, cs => do
    match ← skipLines? (cs.length + 1) cs with
    | ']' :: rest => return ([], rest)
    | start =>
      let (item, rest) ← valueFrom? fuel depth start
      match ← skipLines? (rest.length + 1) rest with
      | ',' :: more =>
        let (items, rest) ← itemsFrom? fuel depth more
        return (item :: items, rest)
      | ']' :: rest => return ([item], rest)
      | _ => none

/-- Reads the entries of a table in braces, and its closing brace. -/
def entriesFrom? : (fuel depth : Nat) → Table → List Char → Option (Table × List Char)
  | 0, _, _, _ => none
  | fuel + 1, depth, table, cs => do
    let (key, rest) ← key? cs
    match rest with
    | '=' :: start =>
      let (value, rest) ← valueFrom? fuel depth (skipBlanks start)
      let table ← table.addDotted value key
      match skipBlanks rest with
      | ',' :: more => entriesFrom? fuel depth table more
      | '\x7d' :: rest => return (table, rest)
      | _ => none
    | _ => none

end

/-- Reads a value. -/
def value? (cs : List Char) : Option (Value × List Char) :=
  valueFrom? (cs.length + 1) maxDepth cs

/-! ## Statements -/

/-- A statement of a document. -/
inductive Statement where
  | assign (key : List String) (value : Value)
  | header (key : List String)
  | arrayHeader (key : List String)

/-- Reads a statement, to the end of its line. -/
def statement? (cs : List Char) : Option (Statement × List Char) :=
  match cs with
  | '[' :: '[' :: rest => do
    let (key, rest) ← key? rest
    match rest with
    | ']' :: ']' :: rest => return (.arrayHeader key, ← endOfLine? rest)
    | _ => none
  | '[' :: rest => do
    let (key, rest) ← key? rest
    match rest with
    | ']' :: rest => return (.header key, ← endOfLine? rest)
    | _ => none
  | _ => do
    let (key, rest) ← key? cs
    match rest with
    | '=' :: start =>
      let (value, rest) ← value? (skipBlanks start)
      return (.assign key value, ← endOfLine? rest)
    | _ => none

/-- Reads the statements of a document. -/
def statementsFrom? : Nat → List Char → Option (List Statement)
  | 0, _ => none
  | fuel + 1, cs =>
    match skipBlanks cs with
    | [] => some []
    | '\n' :: rest => statementsFrom? fuel rest
    | '#' :: rest => (endOfLine? ('#' :: rest)).bind (statementsFrom? fuel)
    | start => do
      let (statement, rest) ← statement? start
      return statement :: (← statementsFrom? fuel rest)

/-- The statements of a text. -/
def statements? (cs : List Char) : Option (List Statement) :=
  statementsFrom? (cs.length + 1) cs

/-! ## Documents -/

/-- A document under construction, with the latest header. -/
structure Draft where
  document : Table
  header : List String

/-- The effect of a statement. -/
def Draft.apply (draft : Draft) : Statement → Option Draft
  | .assign key value =>
    (draft.document.addAt draft.header key value).map fun document => { draft with document }
  | .header key => (draft.document.openTable key).map fun document => ⟨document, key⟩
  | .arrayHeader key => (draft.document.pushTable key).map fun document => ⟨document, key⟩

/-- A text with line feeds for its line breaks, and without a byte order mark. -/
def normalize (cs : List Char) : List Char :=
  let rec lines : List Char → List Char
    | [] => []
    | '\r' :: '\n' :: rest => '\n' :: lines rest
    | c :: rest => c :: lines rest
  match cs with
  | '\uFEFF' :: rest => lines rest
  | _ => lines cs

/-- The document of a text. -/
def parse? (text : String) : Option Table := do
  let statements ← statements? (normalize text.toList)
  let draft ← statements.foldlM Draft.apply ⟨[], []⟩
  return draft.document

end Toml

end DeprecatedApi
