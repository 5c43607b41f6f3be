/-!
# Lines and columns

A place in a text is shown as a line and a column, both counted from one. Offsets count characters
here. A line keeps the terminator that ends it, so the lines of a text joined together are the text
(`flatten_lines`), and a text that ends with a terminator has no empty line after it: the place
just behind such a text lies on its last line.
-/

namespace MiniLisp.Source

/-- The characters that end a line: line feed, carriage return, vertical tab, form feed, next line,
line separator and paragraph separator. -/
def isLineEnd (c : Char) : Bool :=
  c == '\n' || c == '\r' || c == '\x0b' || c == '\x0c' || c == '\u0085' || c == '\u2028' ||
    c == '\u2029'

/-- Puts a character in front of a text that is already cut into lines. A carriage return ends its
own line unless a line feed alone follows it, which then belongs to the same line. -/
def pushLine (c : Char) : List (List Char) → List (List Char)
  | [] => [[c]]
  | line :: rest =>
    if isLineEnd c && !(c == '\r' && line == ['\n']) then [c] :: line :: rest
    else (c :: line) :: rest

/-- The lines of a text, each with its terminator. The empty text has none. -/
def lines (text : List Char) : List (List Char) :=
  text.foldr pushLine []

theorem flatten_pushLine (c : Char) (ls : List (List Char)) :
    (pushLine c ls).flatten = c :: ls.flatten := by
  cases ls with
  | nil => rfl
  | cons line rest =>
    rw [pushLine]
    split <;> simp

/-- No character is lost or moved by cutting a text into lines. -/
theorem flatten_lines (text : List Char) : (lines text).flatten = text := by
  induction text with
  | nil => rfl
  | cons c cs ih =>
    show (pushLine c (lines cs)).flatten = c :: cs
    rw [flatten_pushLine, ih]

/-- A place in a text, its line and its column counted from one. -/
structure Position where
  line : Nat
  column : Nat
deriving DecidableEq

/-- The written form: line and column with a colon between them. -/
def Position.render (p : Position) : String := toString p.line ++ ":" ++ toString p.column

/-- The place `offset` characters into the given lines, the first of which has number `number`. The
place just behind the last character is on the last line. -/
def positionIn (number : Nat) : List (List Char) → Nat → Option Position
  | [], offset => if offset = 0 then some ⟨number, 1⟩ else none
  | [line], offset => if offset ≤ line.length then some ⟨number, offset + 1⟩ else none
  | line :: next :: rest, offset =>
    if offset < line.length then some ⟨number, offset + 1⟩
    else positionIn (number + 1) (next :: rest) (offset - line.length)

/-- The place `offset` characters into a text, if the text reaches that far. -/
def position? (text : List Char) (offset : Nat) : Option Position :=
  positionIn 1 (lines text) offset

end MiniLisp.Source
