import DeprecatedApi.Json.Lexer

/-!
# Reading JSON values

A value is read token by token. What has been read of the arrays and objects around
the current place stands on a stack, so nesting may go to any depth.

* `Json.Frame`, `Json.Place`: an unfinished array or object, and what may come next.
* `Json.parse?`: the value of a text.
-/

namespace DeprecatedApi

namespace Json

/-- An array or object that waits for one of its values. Lists hold the latest first. -/
inductive Frame where
  | array (items : List Json)
  | object (members : List (StringValue × Json)) (key : StringValue)

/-- What has been read just before the current place. -/
inductive Place where
  /-- Something after which a value must follow. -/
  | beforeValue
  /-- The start of an array; its frame is on the stack. -/
  | arrayStart
  /-- The start of an object. -/
  | objectStart
  /-- A comma in an object. -/
  | beforeKey (members : List (StringValue × Json))
  /-- A key. -/
  | afterKey (members : List (StringValue × Json)) (key : StringValue)
  /-- A value. -/
  | afterValue (value : Json)

/-- What has been read. -/
structure Progress where
  stack : List Frame
  place : Place

/-- Nothing has been read. -/
def Progress.start : Progress :=
  ⟨[], .beforeValue⟩

/-- Reads the first token of a value. -/
def beginValue (stack : List Frame) : Token → Option Progress
  | .scalar s => some ⟨stack, .afterValue (.scalar s)⟩
  | .openArray => some ⟨.array [] :: stack, .arrayStart⟩
  | .openObject => some ⟨stack, .objectStart⟩
  | _ => none

/-- Reads the token after a value. -/
def continueAfter (value : Json) : List Frame → Token → Option Progress
  | .array items :: stack, .comma => some ⟨.array (value :: items) :: stack, .beforeValue⟩
  | .array items :: stack, .closeArray =>
    some ⟨stack, .afterValue (.array (value :: items).reverse)⟩
  | .object members key :: stack, .comma => some ⟨stack, .beforeKey ((key, value) :: members)⟩
  | .object members key :: stack, .closeObject =>
    some ⟨stack, .afterValue (.object ((key, value) :: members).reverse)⟩
  | _, _ => none

/-- Reads one more token. -/
def Progress.step (p : Progress) (token : Token) : Option Progress :=
  match p.place with
  | .beforeValue => beginValue p.stack token
  | .arrayStart =>
    match token with
    | .closeArray => some ⟨p.stack.tail, .afterValue (.array [])⟩
    | _ => beginValue p.stack token
  | .objectStart =>
    match token with
    | .closeObject => some ⟨p.stack, .afterValue (.object [])⟩
    | .scalar (.string key) => some ⟨p.stack, .afterKey [] key⟩
    | _ => none
  | .beforeKey members =>
    match token with
    | .scalar (.string key) => some ⟨p.stack, .afterKey members key⟩
    | _ => none
  | .afterKey members key =>
    match token with
    | .colon => some ⟨.object members key :: p.stack, .beforeValue⟩
    | _ => none
  | .afterValue value => continueAfter value p.stack token

/-- The value read, if it is complete. -/
def Progress.result? (p : Progress) : Option Json :=
  match p.stack, p.place with
  | [], .afterValue value => some value
  | _, _ => none

/-- The value of a sequence of tokens. -/
def ofTokens? (tokens : List Token) : Option Json :=
  tokens.foldlM Progress.step Progress.start >>= Progress.result?

/-- The value of a text. -/
def parse? (text : String) : Option Json :=
  Token.scan? text.toList >>= ofTokens?

end Json

end DeprecatedApi
