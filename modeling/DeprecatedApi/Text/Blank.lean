/-!
# Blank characters

A character is *blank* when it has the Unicode property `White_Space`; a text is
*trimmed* by dropping its blank characters from both ends.

* `isBlank`: the property, as a table of code point ranges.
* `trimStart`, `trimEnd`, `trim`: trimming on lists of characters.
* `Text.trim`, `Text.allBlank`: the same questions on strings.
-/

namespace DeprecatedApi

namespace Text

/-- The code points with the property `White_Space`, as inclusive ranges. -/
def blankRanges : List (Nat × Nat) :=
  [(0x09, 0x0D), (0x20, 0x20), (0x85, 0x85), (0xA0, 0xA0), (0x1680, 0x1680),
   (0x2000, 0x200A), (0x2028, 0x2029), (0x202F, 0x202F), (0x205F, 0x205F),
   (0x3000, 0x3000)]

/-- Whether a character is white space. -/
def isBlank (c : Char) : Bool :=
  blankRanges.any fun range => range.1 ≤ c.toNat && c.toNat ≤ range.2

/-- Drops the leading blank characters. -/
def trimStart (cs : List Char) : List Char :=
  cs.dropWhile isBlank

/-- Drops the trailing blank characters. -/
def trimEnd (cs : List Char) : List Char :=
  (cs.reverse.dropWhile isBlank).reverse

/-- Drops the blank characters at both ends. -/
def trimChars (cs : List Char) : List Char :=
  trimEnd (trimStart cs)

/-- A text without the blank characters at its ends. -/
def trim (s : String) : String :=
  String.ofList (trimChars s.toList)

/-- Whether a text has nothing but blank characters. -/
def allBlank (s : String) : Bool :=
  s.toList.all isBlank

end Text

end DeprecatedApi
