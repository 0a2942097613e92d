/-!
# Blank characters

## Main definitions

* `Text.isWhiteSpace`: the characters with the Unicode property White_Space.
* `Text.isBlank`: these, and the four information separators.
* `Text.isAsciiBlank`: the six of them in ASCII.
* `Text.trim`: a list of characters without the ones at both ends that satisfy a test.
-/

namespace ExactNumerics

namespace Text

/-- The characters with the Unicode property White_Space. -/
def isWhiteSpace (c : Char) : Bool :=
  let n := c.toNat
  (0x9 ≤ n && n ≤ 0xD) || n == 0x20 || n == 0x85 || n == 0xA0 || n == 0x1680 ||
    (0x2000 ≤ n && n ≤ 0x200A) || n == 0x2028 || n == 0x2029 || n == 0x202F || n == 0x205F ||
    n == 0x3000

/-- White space, or one of the separators from `U+001C` to `U+001F`. -/
def isBlank (c : Char) : Bool := isWhiteSpace c || (0x1C ≤ c.toNat && c.toNat ≤ 0x1F)

/-- A space, a tab or one of the four line ends of ASCII. -/
def isAsciiBlank (c : Char) : Bool := c.toNat == 0x20 || (0x9 ≤ c.toNat && c.toNat ≤ 0xD)

/-- Drops the characters at both ends that satisfy a test. -/
def trim (blank : Char → Bool) (cs : List Char) : List Char :=
  ((cs.dropWhile blank).reverse.dropWhile blank).reverse

end Text

end ExactNumerics
