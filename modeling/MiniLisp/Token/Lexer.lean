import MiniLisp.Number.Literal
import MiniLisp.Token.Basic
import MiniLisp.Unicode.Blank
import MiniLisp.Unicode.Pictographic

/-!
# The lexer

At each place the lexer skips separators and comments and then decides on one token. The decision
(`munch`) is a kind and a number of further characters, so a token's text is always a piece of the
source and what follows it is the rest.

* An *atom* is the longest run of symbol characters. It is a number, a boolean or a dot if the whole
  run has that form, and a symbol otherwise: no shorter piece of it is ever taken for a number.
* A run may not begin with a slash. From a slash on, the text up to the next slash on the line is
  a regular expression unless a blank, a slash or a closing bracket comes right after the first
  slash, which leaves `(/ 6 2)` and `(f /)` to be divisions.
* A string may run over several lines. It stays open if the text ends before its closing quote, and
  also at a backslash in front of a line break, which it takes in and ends with.
-/

namespace MiniLisp

namespace Lexer

/-! ### Character classes -/

/-- The characters between tokens. -/
def isSeparator (c : Char) : Bool :=
  c == ' ' || c == '\t' || c == '\n' || c == '\r' || c == '\x0c'

/-- The line breaks that end a comment and that no regular expression crosses. -/
def isLineBreak (c : Char) : Bool := c == '\n' || c == '\r'

/-- The punctuation of symbols. -/
def symbolPunctuation : List Char := "!#$%&*/:<=>?~_^+-.".toList

/-- An ASCII character that may stand in a symbol. -/
def isPlainSymbolChar (c : Char) : Bool :=
  c.isAlphanum || symbolPunctuation.contains c

/-- A character of an atom: letters, digits, punctuation and pictographic characters. -/
def isAtomChar (c : Char) : Bool :=
  isPlainSymbolChar c || Unicode.isPictographic c

/-- A character that begins an atom. -/
def isAtomStart (c : Char) : Bool := isAtomChar c && c != '/'

/-- A character of a symbol that begins with a slash, where all of Unicode is let in. -/
def isSlashSymbolChar (c : Char) : Bool :=
  isPlainSymbolChar c || (0x80 ≤ c.toNat && !Unicode.isBlank c)

/-! ### Atoms -/

/-- A text of the form of a number: an optional sign, digits, and then optionally a point with
digits and an exponent. -/
def isNumeral (cs : List Char) : Bool :=
  let body := (Number.splitSign cs).2
  !(body.takeWhile Char.isDigit).isEmpty &&
    match body.dropWhile Char.isDigit with
    | '.' :: rest =>
      !(rest.takeWhile Char.isDigit).isEmpty &&
        (Number.exponentPart? (rest.dropWhile Char.isDigit)).isSome
    | rest => (Number.exponentPart? rest).isSome

/-- The kind of an atom, decided by its text alone. -/
def atomKind (cs : List Char) : TokenKind :=
  if cs = ['.'] then .dot
  else if cs = ['#', 't'] ∨ cs = ['#', 'f'] then .boolean
  else if isNumeral cs then .number
  else .symbol

/-! ### Strings and slash forms -/

/-- The extent of a string after its opening quote and `n` characters more. The flag says whether
the string is closed. -/
def stringExtent (n : Nat) : List Char → Bool × Nat
  | [] => (false, n)
  | '"' :: _ => (true, n + 1)
  | ['\\'] => (false, n + 1)
  | '\\' :: c :: rest => if c = '\n' then (false, n + 1) else stringExtent (n + 2) rest
  | _ :: rest => stringExtent (n + 1) rest

/-- The extent of a regular expression after its opening slash and `n` characters more, the last of
which was a backslash that escapes the next one if `escaped` is set. The letters after the closing
slash are its flags. -/
def closingSlash? (n : Nat) (escaped : Bool) : List Char → Option Nat
  | [] => none
  | c :: rest =>
    if isLineBreak c then none
    else if escaped then closingSlash? (n + 1) false rest
    else if c = '\\' then closingSlash? (n + 1) true rest
    else if c = '/' then some (n + 1 + (rest.takeWhile Char.isAlpha).length)
    else closingSlash? (n + 1) false rest

/-- The extent of the regular expression after its opening slash, if there is one. -/
def regexExtent? : List Char → Option Nat
  | [] => none
  | c :: rest =>
    if Unicode.isBlank c || c == '/' || c == ')' then none else closingSlash? 0 false (c :: rest)

/-! ### Tokens -/

/-- The token that begins with a given character: its kind, and the number of characters it takes
of those that follow. -/
def munch (c : Char) (rest : List Char) : TokenKind × Nat :=
  match c with
  | '(' => (.leftParen, 0)
  | ')' => (.rightParen, 0)
  | '\'' => (.quote, 0)
  | '\x60' => (.quasiquote, 0)
  | ',' => if rest.head? = some '@' then (.splice, 1) else (.unquote, 0)
  | '"' =>
    let (closed, n) := stringExtent 0 rest
    (if closed then .string else .openString, n)
  | '/' => match regexExtent? rest with
    | some n => (.regex, n)
    | none => (.symbol, (rest.takeWhile isSlashSymbolChar).length)
  | c =>
    if isAtomStart c then
      let run := rest.takeWhile isAtomChar
      (atomKind (c :: run), run.length)
    else (.invalid, 0)

/-- The tokens of a text that begins at a byte offset. -/
def tokensFrom (offset : Nat) : List Char → List Token
  | [] => []
  | c :: rest =>
    if isSeparator c then tokensFrom (offset + c.utf8Size) rest
    else if c = ';' then
      let comment := rest.takeWhile fun d ↦ !isLineBreak d
      tokensFrom (offset + c.utf8Size + byteLength comment)
        (rest.dropWhile fun d ↦ !isLineBreak d)
    else
      let (kind, n) := munch c rest
      let text := c :: rest.take n
      let stop := offset + byteLength text
      ⟨kind, String.ofList text, ⟨offset, stop⟩⟩ :: tokensFrom stop (rest.drop n)
termination_by text => text.length
decreasing_by
  · simp
  · have := (List.dropWhile_sublist (p := fun d ↦ !isLineBreak d) (l := rest)).length_le
    simp only [List.length_cons]
    omega
  · simp only [List.length_cons, List.length_drop]
    omega

end Lexer

/-- The tokens of a source text. -/
def tokenize (source : String) : List Token := Lexer.tokensFrom 0 source.toList

/-- The texts of the tokens of a source text. -/
def tokenTexts (source : String) : List String := (tokenize source).map (·.text)

end MiniLisp
