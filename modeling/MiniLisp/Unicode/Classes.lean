import MiniLisp.Unicode.Category
import MiniLisp.Unicode.Ranges

/-!
# Classes of characters built from the general categories

The class of word characters that regular expressions use, and the two classes that decide how a
character is shown in a quoted form: whether it is printable, and whether it extends the character
before it.
-/

namespace MiniLisp.Unicode

/-- A decimal digit of any script. -/
def isDecimal (c : Char) : Bool :=
  Category.of c == .Nd

/-- Circled letters, which are alphabetic without being letters. -/
def alphabeticSymbolRanges : Ranges := [
  (0x24B6, 0x24E9), (0x1F130, 0x1F149), (0x1F150, 0x1F169), (0x1F170, 0x1F189)]

/-- A word character: alphabetic, a mark, a decimal digit, connecting punctuation, or one of the two
joiners. -/
def isWord (c : Char) : Bool :=
  match Category.of c with
  | .Lu | .Ll | .Lt | .Lm | .Lo | .Mn | .Mc | .Me | .Nd | .Nl | .Pc => true
  | _ => c == '\u200c' || c == '\u200d' || alphabeticSymbolRanges.contains c.toNat

/-- A printable character: neither a control, format, private, surrogate or unassigned character
nor a separator, the common space excepted. -/
def isPrintable (c : Char) : Bool :=
  match (Category.of c).major with
  | .other => false
  | .separator => c == ' '
  | _ => true

/-- Spacing characters that extend the character before them all the same. -/
def spacingExtenderRanges : Ranges := [
  (0x9BE, 0x9BE), (0x9D7, 0x9D7), (0xB3E, 0xB3E), (0xB57, 0xB57), (0xBBE, 0xBBE), (0xBD7, 0xBD7),
  (0xCC2, 0xCC2), (0xCD5, 0xCD6), (0xD3E, 0xD3E), (0xD57, 0xD57), (0xDCF, 0xDCF), (0xDDF, 0xDDF),
  (0x1B35, 0x1B35), (0x200C, 0x200C), (0x302E, 0x302F), (0xFF9E, 0xFF9F), (0x1133E, 0x1133E),
  (0x11357, 0x11357), (0x114B0, 0x114B0), (0x114BD, 0x114BD), (0x115AF, 0x115AF),
  (0x11930, 0x11930), (0x1D165, 0x1D165), (0x1D16E, 0x1D172), (0xE0020, 0xE007F)]

/-- A character that extends the one before it: a mark that takes no room of its own, or one of the
spacing extenders. -/
def isExtender (c : Char) : Bool :=
  match Category.of c with
  | .Mn | .Me => true
  | _ => spacingExtenderRanges.contains c.toNat

end MiniLisp.Unicode
