import MiniLisp.Unicode.Blank
import MiniLisp.Unicode.Classes
import MiniLisp.Unicode.Folding

/-!
# Sets of characters

The character classes of regular expressions, as expressions over a few basic sets. A set is known
by its members (`CharSet.mem`); it is never listed. Ignoring case is an operation on sets: a
character is in `folded s` when some character that is the same up to case is in `s`.
-/

namespace MiniLisp.Regex

/-- A set of characters. -/
inductive CharSet where
  /-- The characters between two code points, both included. -/
  | range (first last : Nat)
  /-- The characters with a property. -/
  | property (has : Char → Bool)
  | union (s t : CharSet)
  | inter (s t : CharSet)
  | complement (s : CharSet)
  /-- The characters that are the same, up to case, as one of the set. -/
  | folded (s : CharSet)

namespace CharSet

/-- Membership. -/
def mem : CharSet → Char → Bool
  | range first last, c => first ≤ c.toNat && c.toNat ≤ last
  | property has, c => has c
  | union s t, c => s.mem c || t.mem c
  | inter s t, c => s.mem c && t.mem c
  | complement s, c => !s.mem c
  | folded s, c => (Unicode.caseOrbit c.toNat).any fun n ↦ s.mem (Char.ofNat n)

/-- The set without members. -/
def empty : CharSet := range 1 0

/-- The set of all characters. -/
def any : CharSet := range 0 0x10FFFF

/-- The set of one character. -/
def single (c : Char) : CharSet := range c.toNat c.toNat

/-- The set of the members of a list. -/
def ofList (cs : List Char) : CharSet := cs.foldr (fun c s ↦ union (single c) s) empty

/-- The members of the first set that are not in the second. -/
def diff (s t : CharSet) : CharSet := inter s (complement t)

/-- The members of exactly one of the sets. -/
def symmDiff (s t : CharSet) : CharSet := union (diff s t) (diff t s)

/-- The set, or its complement. -/
def negatedIf (negated : Bool) (s : CharSet) : CharSet := if negated then complement s else s

/-! ### Named classes -/

/-- The ASCII decimal digits. -/
def asciiDigit : CharSet := range 0x30 0x39

/-- The ASCII letters. -/
def asciiLetter : CharSet := union (range 0x41 0x5A) (range 0x61 0x7A)

/-- The ASCII letters, digits and the underscore. -/
def asciiWord : CharSet := union (union asciiDigit asciiLetter) (single '_')

/-- The ASCII white space. -/
def asciiSpace : CharSet := union (range 9 13) (single ' ')

/-- The class of a letter after a backslash: `d` for digits, `s` for white space, `w` for word
characters. Outside of Unicode mode only their ASCII members count. -/
def perl? (unicode : Bool) (c : Char) : Option CharSet :=
  match c with
  | 'd' => some (if unicode then property Unicode.isDecimal else asciiDigit)
  | 's' => some (if unicode then property Unicode.isBlank else asciiSpace)
  | 'w' => some (if unicode then property Unicode.isWord else asciiWord)
  | _ => none

/-- The class with a name between colons, such as `[:alpha:]`. -/
def ascii? (name : String) : Option CharSet :=
  match name with
  | "alnum" => some (union asciiDigit asciiLetter)
  | "alpha" => some asciiLetter
  | "ascii" => some (range 0 0x7F)
  | "blank" => some (ofList ['\t', ' '])
  | "cntrl" => some (union (range 0 0x1F) (range 0x7F 0x7F))
  | "digit" => some asciiDigit
  | "graph" => some (range 0x21 0x7E)
  | "lower" => some (range 0x61 0x7A)
  | "print" => some (range 0x20 0x7E)
  | "punct" => some (union (union (range 0x21 0x2F) (range 0x3A 0x40))
      (union (range 0x5B 0x60) (range 0x7B 0x7E)))
  | "space" => some asciiSpace
  | "upper" => some (range 0x41 0x5A)
  | "word" => some asciiWord
  | "xdigit" => some (union asciiDigit (union (range 0x41 0x46) (range 0x61 0x66)))
  | _ => none

end CharSet

end MiniLisp.Regex
