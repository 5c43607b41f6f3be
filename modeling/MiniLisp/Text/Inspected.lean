import MiniLisp.Unicode.Classes

/-!
# Inspected text

The form in which a string is shown when the inside of a value is shown. Every character that could
not be told from its surroundings is written by its code point: the unprintable ones, and those
that would merge with the character before them.
-/

namespace MiniLisp.Text.Inspected

/-- A code point in lower case hexadecimal digits between braces. -/
def codePoint (c : Char) : List Char :=
  ['\\', 'u', '\x7b'] ++ Nat.toDigits 16 c.toNat ++ ['\x7d']

/-- The shown form of a character. -/
def showChar (c : Char) : List Char :=
  if c = '\x00' then ['\\', '0']
  else if c = '\t' then ['\\', 't']
  else if c = '\r' then ['\\', 'r']
  else if c = '\n' then ['\\', 'n']
  else if c = '\\' then ['\\', '\\']
  else if c = '"' then ['\\', '"']
  else if Unicode.isExtender c then codePoint c
  else if Unicode.isPrintable c then [c]
  else codePoint c

/-- The shown form of a string, with its quotes. -/
def quote (s : String) : String :=
  "\"" ++ String.ofList (s.toList.flatMap showChar) ++ "\""

/-- The shown form of a list: its members between brackets. -/
def list (members : List String) : String :=
  "[" ++ String.intercalate ", " members ++ "]"

/-- The shown form of an optional value. -/
def option : Option String → String
  | none => "None"
  | some s => "Some(" ++ s ++ ")"

/-- The shown form of a record, its fields in order. An open record has fields that are not shown.
-/
def record (name : String) (fields : List (String × String)) (isOpen : Bool) : String :=
  let shown := fields.map fun f ↦ f.1 ++ ": " ++ f.2
  let shown := if isOpen then shown ++ [".."] else shown
  name ++ " \x7b " ++ String.intercalate ", " shown ++ " \x7d"

end MiniLisp.Text.Inspected
