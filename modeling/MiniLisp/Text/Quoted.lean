/-!
# String literals

Between its quotes a string literal holds the characters of the string, with a backslash in front
of the characters that would end the literal or start an escape, and with letters for the
characters that break a line. Writing then reading is the identity (`decode_encode`). The reader
knows one escape more than the writer uses, `\0`, and it takes a bare line break as it is.
-/

namespace MiniLisp.Text.Quoted

/-- What is wrong with the body of a string literal. -/
inductive Fault where
  /-- A backslash followed by a character that names no escape. -/
  | unknownEscape (c : Char)
  /-- A backslash at the end. -/
  | dangling
deriving DecidableEq

/-- The written form of a character. -/
def encodeChar (c : Char) : List Char :=
  if c = '"' then ['\\', '"']
  else if c = '\\' then ['\\', '\\']
  else if c = '\n' then ['\\', 'n']
  else if c = '\r' then ['\\', 'r']
  else if c = '\t' then ['\\', 't']
  else [c]

/-- The body of the literal for a string. -/
def encode (cs : List Char) : List Char := cs.flatMap encodeChar

/-- The character that an escape stands for, given what follows its backslash. -/
def unescape? (c : Char) : Option Char :=
  if c = 'n' then some '\n'
  else if c = 'r' then some '\r'
  else if c = 't' then some '\t'
  else if c = '0' then some '\x00'
  else if c = '\\' then some '\\'
  else if c = '"' then some '"'
  else none

/-- Reads the body of a literal, with the characters already read in reverse. The first fault from
the left is the one reported. -/
def decodeOnto (read : List Char) : List Char → Except Fault (List Char)
  | [] => .ok read.reverse
  | '\\' :: c :: rest => match unescape? c with
    | some d => decodeOnto (d :: read) rest
    | none => .error (.unknownEscape c)
  | ['\\'] => .error .dangling
  | c :: rest => decodeOnto (c :: read) rest

/-- The string that the body of a literal stands for. -/
def decode (cs : List Char) : Except Fault (List Char) := decodeOnto [] cs

theorem decodeOnto_plain (read rest : List Char) {c : Char} (h : c ≠ '\\') :
    decodeOnto read (c :: rest) = decodeOnto (c :: read) rest := by
  rw [decodeOnto]
  · rintro d r rfl
    exact absurd rfl h
  · rintro rfl
    exact absurd rfl h

/-- The written form of a character is read back as that character, whatever follows. -/
theorem decodeOnto_encodeChar (read rest : List Char) (c : Char) :
    decodeOnto read (encodeChar c ++ rest) = decodeOnto (c :: read) rest := by
  rw [encodeChar]
  split
  · next h => subst h; rfl
  split
  · next h => subst h; rfl
  split
  · next h => subst h; rfl
  split
  · next h => subst h; rfl
  split
  · next h => subst h; rfl
  · next h _ _ _ => exact decodeOnto_plain read rest h

theorem decodeOnto_encode (read cs : List Char) :
    decodeOnto read (encode cs) = .ok (read.reverse ++ cs) := by
  induction cs generalizing read with
  | nil => simp [encode, decodeOnto]
  | cons c cs ih =>
    show decodeOnto read (encodeChar c ++ encode cs) = _
    rw [decodeOnto_encodeChar, ih]
    simp

/-- Writing then reading is the identity. -/
theorem decode_encode (cs : List Char) : decode (encode cs) = .ok cs := by
  rw [decode, decodeOnto_encode]
  simp

/-- The literal for a string, with its quotes. -/
def literal (s : String) : String :=
  "\"" ++ String.ofList (encode s.toList) ++ "\""

end MiniLisp.Text.Quoted
