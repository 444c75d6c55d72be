/-!
# Blank characters

The twenty-five characters with the Unicode property White_Space, and the trimming of texts by it.
-/

namespace EventScript.Text

/-- Whether the character has the Unicode property White_Space. -/
def isBlank (c : Char) : Bool :=
  let code := c.toNat
  (9 ≤ code && code ≤ 13) || code == 0x20 || code == 0x85 || code == 0xA0 || code == 0x1680 ||
    (0x2000 ≤ code && code ≤ 0x200A) || code == 0x2028 || code == 0x2029 || code == 0x202F ||
    code == 0x205F || code == 0x3000

/-- Drops the trailing characters that satisfy `p`. -/
def dropTrailing (p : Char → Bool) (chars : List Char) : List Char :=
  (chars.reverse.dropWhile p).reverse

/-- Drops the blanks at both ends. -/
def trim (chars : List Char) : List Char :=
  dropTrailing isBlank (chars.dropWhile isBlank)

end EventScript.Text
