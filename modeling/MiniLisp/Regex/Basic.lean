import MiniLisp.Regex.CharSet

/-!
# Regular expressions and matching

A regular expression relates places of a text: those where a match can begin to those where it can
end. Matching computes the image of a set of places under that relation (`Pattern.image`), so there
is no backtracking and nothing depends on the order of alternatives. A set of places of a text with
`n` characters is a list of `n + 1` flags, one for each place between characters.

Since only the existence of a match is asked for, groups, capture and greed do not occur here.
-/

namespace MiniLisp.Regex

/-- A condition on a place. -/
inductive Look where
  | textStart | textEnd
  /-- At the start of a line. With `crlf` a carriage return counts as a line break as well, and
  together with a line feed as one. -/
  | lineStart (crlf : Bool)
  | lineEnd (crlf : Bool)
  /-- At a boundary of a word. -/
  | wordBoundary (unicode : Bool)
  | notWordBoundary (unicode : Bool)
  | wordStart (unicode : Bool)
  | wordEnd (unicode : Bool)
  /-- Not behind a word character. -/
  | wordStartHalf (unicode : Bool)
  /-- Not in front of a word character. -/
  | wordEndHalf (unicode : Bool)
deriving DecidableEq

/-- A regular expression. -/
inductive Pattern where
  /-- Matches the empty text. -/
  | empty
  /-- Matches one character of a set. -/
  | chars (set : CharSet)
  | look (condition : Look)
  | seq (p q : Pattern)
  | alt (p q : Pattern)
  /-- Matches `least` times in a row or more, up to `most` times if that is given. -/
  | repeated (p : Pattern) (least : Nat) (most : Option Nat)

/-- The characters on both sides of a place. -/
abbrev Neighbours := Option Char × Option Char

/-- The character is a word character. -/
def isWordChar (unicode : Bool) (c : Char) : Bool :=
  if unicode then Unicode.isWord c else CharSet.asciiWord.mem c

/-- There is a word character on a side. -/
def hasWord (unicode : Bool) (side : Option Char) : Bool :=
  side.any (isWordChar unicode)

/-- The condition holds between two characters. -/
def Look.holds : Look → Neighbours → Bool
  | textStart, (before, _) => before.isNone
  | textEnd, (_, after) => after.isNone
  | lineStart crlf, (before, after) =>
    before.isNone || before == some '\n' || (crlf && before == some '\r' && after != some '\n')
  | lineEnd crlf, (before, after) =>
    after.isNone || (after == some '\n' && !(crlf && before == some '\r')) ||
      (crlf && after == some '\r')
  | wordBoundary u, (before, after) => hasWord u before != hasWord u after
  | notWordBoundary u, (before, after) => hasWord u before == hasWord u after
  | wordStart u, (before, after) => !hasWord u before && hasWord u after
  | wordEnd u, (before, after) => hasWord u before && !hasWord u after
  | wordStartHalf u, (before, _) => !hasWord u before
  | wordEndHalf u, (_, after) => !hasWord u after

/-- The neighbours of each place of a text, given the character in front of it. -/
def neighbours (before : Option Char) : List Char → List Neighbours
  | [] => [(before, none)]
  | c :: cs => (before, some c) :: neighbours (some c) cs

/-- A set of places of a text. -/
abbrev Places := List Bool

/-- The places one character further on, where that character is in a set. -/
def stepOver (set : CharSet) (text : List Char) (places : Places) : Places :=
  false :: List.zipWith (fun here c ↦ here && set.mem c) places text

/-- The union of two sets of places. -/
def unite (s t : Places) : Places := List.zipWith (· || ·) s t

/-- Applies a map of places a number of times, stopping when no place is left. -/
def iterate (f : Places → Places) : Nat → Places → Places
  | 0, places => places
  | n + 1, places => if places.any id then iterate f n (f places) else places

/-- Adds the image of a set of places to it up to a number of times, stopping when that adds
nothing. -/
def close (f : Places → Places) : Nat → Places → Places
  | 0, places => places
  | n + 1, places =>
    let more := unite places (f places)
    if more = places then places else close f n more

/-- The places where a match can end that begins at one of the given places. -/
def Pattern.image (text : List Char) (around : List Neighbours) : Pattern → Places → Places
  | empty, places => places
  | chars set, places => stepOver set text places
  | look condition, places =>
    List.zipWith (fun here sides ↦ here && condition.holds sides) places around
  | seq p q, places => q.image text around (p.image text around places)
  | alt p q, places => unite (p.image text around places) (q.image text around places)
  | repeated p least most, places =>
    let after := iterate (p.image text around) least places
    close (p.image text around) ((most.map (· - least)).getD (text.length + 1)) after

/-- The pattern matches somewhere in a text. -/
def Pattern.matchesIn (p : Pattern) (text : String) : Bool :=
  let cs := text.toList
  (p.image cs (neighbours none cs) (List.replicate (cs.length + 1) true)).any id

/-- About how large the pattern is once its repetitions are written out. This is a coarse count and
not the size of the compiled pattern: a class counts as one, however many ranges it has. -/
def Pattern.weight : Pattern → Nat
  | empty => 1
  | chars _ => 1
  | look _ => 1
  | seq p q => p.weight + q.weight
  | alt p q => p.weight + q.weight + 1
  | repeated p least most => p.weight * max 1 (most.getD (least + 1)) + 1

end MiniLisp.Regex
