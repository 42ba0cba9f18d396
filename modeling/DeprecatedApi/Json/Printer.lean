import DeprecatedApi.Json.Lexer

/-!
# Writing JSON values

A value is written as its tokens, with layout between them: none in the compact
form; in the indented form every item and member stands on a line of its own,
indented by two spaces for each level, and a space follows each colon.

* `Number.chars`, `Scalar.chars`, `Token.chars`: the text of a token.
* `Json.Piece`: a token or a piece of layout.
* `Json.compact`, `Json.pretty`: the two forms.
-/

namespace DeprecatedApi

/-! ## Tokens -/

namespace Number

/-- The decimal text of an integer. -/
def exponentChars : Int → List Char
  | .ofNat n => Nat.toDigits 10 n
  | .negSucc n => '-' :: Nat.toDigits 10 (n + 1)

/-- The text of a number. -/
def chars (n : Number) : List Char :=
  (if n.negative then ['-'] else []) ++ Nat.toDigits 10 n.whole
    ++ (if n.fraction.isEmpty then [] else '.' :: n.fraction.map Nat.digitChar)
    ++ (match n.exponent with
      | none => []
      | some e => 'e' :: exponentChars e)

end Number

/-- The text of one character in a string: quotes, backslashes and control
characters are escaped, all others stand for themselves. -/
def escaped (c : Char) : List Char :=
  if c = '"' then ['\\', '"']
  else if c = '\\' then ['\\', '\\']
  else if c = '\x08' then ['\\', 'b']
  else if c = '\x0c' then ['\\', 'f']
  else if c = '\n' then ['\\', 'n']
  else if c = '\r' then ['\\', 'r']
  else if c = '\t' then ['\\', 't']
  else if c.toNat < 0x20 then
    ['\\', 'u', '0', '0', Nat.digitChar (c.toNat / 16), Nat.digitChar (c.toNat % 16)]
  else [c]

/-- The text of a string. One that denotes no text is written as half a surrogate pair. -/
def quoted : StringValue → List Char
  | some text => '"' :: text.toList.flatMap escaped ++ ['"']
  | none => "\"\\ud800\"".toList

/-- The text of a scalar. -/
def Scalar.chars : Scalar → List Char
  | .null => "null".toList
  | .bool true => "true".toList
  | .bool false => "false".toList
  | .number n => n.chars
  | .string s => quoted s

/-- The text of a token. -/
def Token.chars : Token → List Char
  | .openArray => ['[']
  | .closeArray => [']']
  | .openObject => ['\x7b']
  | .closeObject => ['\x7d']
  | .comma => [',']
  | .colon => [':']
  | .scalar s => s.chars

/-! ## Layout -/

namespace Json

/-- A piece of written JSON. -/
inductive Piece where
  | token (value : Token)
  /-- A line break, and the indentation of the next line in levels. -/
  | newline (level : Nat)
  | space
  deriving DecidableEq, Repr

/-- The text of a piece. -/
def Piece.chars : Piece → List Char
  | .token t => t.chars
  | .newline level => '\n' :: List.replicate (2 * level) ' '
  | .space => [' ']

mutual

/-- The tokens of a value. -/
def tokens : Json → List Token
  | .scalar s => [.scalar s]
  | .array [] => [.openArray, .closeArray]
  | .array (item :: rest) => .openArray :: (item.tokens ++ laterItems rest)
  | .object [] => [.openObject, .closeObject]
  | .object ((key, value) :: rest) =>
    .openObject :: .scalar (.string key) :: .colon :: (value.tokens ++ laterMembers rest)

/-- The tokens after the first item of an array, to its end. -/
def laterItems : List Json → List Token
  | [] => [.closeArray]
  | item :: rest => .comma :: (item.tokens ++ laterItems rest)

/-- The tokens after the first member of an object, to its end. -/
def laterMembers : List (StringValue × Json) → List Token
  | [] => [.closeObject]
  | (key, value) :: rest =>
    .comma :: .scalar (.string key) :: .colon :: (value.tokens ++ laterMembers rest)

end

mutual

/-- The pieces of a value in the indented form, on a line of the given level. -/
def pieces (level : Nat) : Json → List Piece
  | .scalar s => [.token (.scalar s)]
  | .array [] => [.token .openArray, .token .closeArray]
  | .array (item :: rest) =>
    .token .openArray :: .newline (level + 1)
      :: (item.pieces (level + 1) ++ laterItemPieces level rest)
  | .object [] => [.token .openObject, .token .closeObject]
  | .object ((key, value) :: rest) =>
    .token .openObject :: .newline (level + 1) :: .token (.scalar (.string key))
      :: .token .colon :: .space
      :: (value.pieces (level + 1) ++ laterMemberPieces level rest)

/-- The pieces after the first item of an array on a line of the given level. -/
def laterItemPieces (level : Nat) : List Json → List Piece
  | [] => [.newline level, .token .closeArray]
  | item :: rest =>
    .token .comma :: .newline (level + 1)
      :: (item.pieces (level + 1) ++ laterItemPieces level rest)

/-- The pieces after the first member of an object on a line of the given level. -/
def laterMemberPieces (level : Nat) : List (StringValue × Json) → List Piece
  | [] => [.newline level, .token .closeObject]
  | (key, value) :: rest =>
    .token .comma :: .newline (level + 1) :: .token (.scalar (.string key))
      :: .token .colon :: .space
      :: (value.pieces (level + 1) ++ laterMemberPieces level rest)

end

/-- The text of a value without layout. -/
def compact (j : Json) : String :=
  String.ofList (j.tokens.flatMap Token.chars)

/-- The text of a value in the indented form. -/
def pretty (j : Json) : String :=
  String.ofList ((j.pieces 0).flatMap Piece.chars)

end Json

end DeprecatedApi
