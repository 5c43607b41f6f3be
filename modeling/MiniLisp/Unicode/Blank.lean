import MiniLisp.Unicode.Ranges

/-!
# Blank characters

The twenty-five characters with the Unicode property *White_Space*. This is a larger class than the
five characters that separate tokens: a vertical tab or a no-break space is blank and yet no
separator.
-/

namespace MiniLisp.Unicode

/-- The code points of blank characters. -/
def blankRanges : Ranges := [
  (0x9, 0xD), (0x20, 0x20), (0x85, 0x85), (0xA0, 0xA0), (0x1680, 0x1680), (0x2000, 0x200A),
  (0x2028, 0x2029), (0x202F, 0x202F), (0x205F, 0x205F), (0x3000, 0x3000)]

/-- The character is blank. -/
def isBlank (c : Char) : Bool :=
  blankRanges.contains c.toNat

/-- A text without the blank characters at its two ends. -/
def trimBlank (text : List Char) : List Char :=
  ((text.dropWhile isBlank).reverse.dropWhile isBlank).reverse

end MiniLisp.Unicode
