import MiniLisp.Regex.Basic
import MiniLisp.Regex.Property

/-!
# The syntax of regular expressions

A pattern is read in one pass. Settings such as *ignore case* may change inside a pattern and are
in force from there to the end of the group, across alternatives; so they are part of the reader's
state, and what is built is a `Pattern` in which they are already resolved.

The dialect has no look-around and no backreferences. A backslash in front of a letter or digit that
has no meaning there is an error, a repetition needs something to repeat, and an opening brace
always begins a repetition count.

A pattern that is too large is rejected, but how large it is is only counted roughly
(`Parser.maxWeight`).
-/

namespace MiniLisp.Regex

/-- What is wrong with a pattern. -/
inductive Fault where
  | unclosedGroup
  | unopenedGroup
  | lookAround
  | groupName
  | duplicateGroupName
  | flags
  | missingOperand
  | repetition
  | unclosedClass
  | classRange
  | classItem
  | escape
  | backreference
  | unknownProperty
  /-- A set that could match a part of a character. -/
  | notUtf8
  | tooDeep
  | tooLarge
deriving DecidableEq

/-- The settings in force at a place of a pattern. -/
structure Flags where
  /-- Letters match without regard to case. -/
  caseless : Bool
  /-- Line ends count as ends of the text. -/
  multiLine : Bool
  /-- A dot matches a line feed too. -/
  dotAll : Bool
  /-- A carriage return breaks lines too. -/
  crlf : Bool
  /-- Classes are those of Unicode and not of ASCII. -/
  unicode : Bool
  /-- Blanks and comments in the pattern do not count. -/
  verbose : Bool

namespace Parser

/-! ### Blanks and comments -/

/-- Skips blanks, and comments from a number sign to the end of the line. -/
def skipBlanks (inComment : Bool) : List Char → List Char
  | [] => []
  | c :: cs =>
    if inComment then skipBlanks (c != '\n') cs
    else if Unicode.isBlank c then skipBlanks false cs
    else if c == '#' then skipBlanks true cs
    else c :: cs

/-- Skips what does not count under the settings. -/
def skip (flags : Flags) (cs : List Char) : List Char :=
  if flags.verbose then skipBlanks false cs else cs

/-! ### Single characters and classes -/

/-- A unit of a pattern outside and inside of brackets. -/
inductive Item where
  | literal (c : Char)
  | set (s : CharSet)
  | condition (l : Look)

/-- The set closed under case if the settings ask for it. -/
def fold (flags : Flags) (s : CharSet) : CharSet :=
  if !flags.caseless then s
  else if flags.unicode then .folded s
  else .inter (.union s (.folded s)) (.range 0 0x7F)

/-- The set of a character under the settings. -/
def literalSet (flags : Flags) (c : Char) : CharSet :=
  if flags.unicode || c.toNat < 0x80 then fold flags (.single c) else .single c

/-- The value of a hexadecimal digit. -/
def hexValue? (c : Char) : Option Nat :=
  if c.isDigit then some (c.toNat - '0'.toNat)
  else if 'a' ≤ c ∧ c ≤ 'f' then some (c.toNat - 'a'.toNat + 10)
  else if 'A' ≤ c ∧ c ≤ 'F' then some (c.toNat - 'A'.toNat + 10)
  else none

/-- The character with a code point written in hexadecimal digits. -/
def charOfHex (digits : List Nat) : Except Fault Char :=
  let code := digits.foldl (fun n d ↦ 16 * n + d) 0
  if Nat.isValidChar code then .ok (Char.ofNat code) else .error .escape

/-- A fixed number of hexadecimal digits. -/
def hexDigits (flags : Flags) (digits : List Nat) :
    Nat → List Char → Except Fault (Char × List Char)
  | 0, cs => do return (← charOfHex digits.reverse, cs)
  | n + 1, cs => match skip flags cs with
    | [] => .error .escape
    | c :: rest => match hexValue? c with
      | some d => hexDigits flags (d :: digits) n rest
      | none => .error .escape

/-- Hexadecimal digits up to a closing brace. -/
def hexBraced (flags : Flags) (cs : List Char) : Except Fault (Char × List Char) := do
  let body := cs.takeWhile (· != '\x7d')
  let body := if flags.verbose then body.filter fun c ↦ !Unicode.isBlank c else body
  match cs.dropWhile (· != '\x7d'), body.mapM hexValue? with
  | _ :: rest, some (d :: digits) => return (← charOfHex (d :: digits), rest)
  | _, _ => .error .escape

/-- A code point after the letter that announces it: a number of digits, or any number of digits in
braces. -/
def hexEscape (flags : Flags) (count : Nat) (cs : List Char) : Except Fault (Char × List Char) :=
  match skip flags cs with
  | '\x7b' :: rest => hexBraced flags rest
  | rest => hexDigits flags [] count rest

/-- Splits a name at the first occurrence of a separator. -/
def splitAt? (separator : List Char) : List Char → Option (List Char × List Char)
  | [] => none
  | c :: cs =>
    if separator.isPrefixOf (c :: cs) then some ([], (c :: cs).drop separator.length)
    else (splitAt? separator cs).map fun p ↦ (c :: p.1, p.2)

/-- The set of a property given between braces. -/
def propertySet? (name : List Char) : Option CharSet :=
  match splitAt? ['!', '='] name with
  | some (key, value) => (Property.valued? key value).map .complement
  | none => match splitAt? [':'] name <|> splitAt? ['='] name with
    | some (key, value) => Property.valued? key value
    | none => Property.named? name

/-- A Unicode property after its letter. -/
def propertyEscape (flags : Flags) (negated : Bool) (cs : List Char) :
    Except Fault (CharSet × List Char) := do
  let (found, rest) ← match skip flags cs with
    | [] => Except.error Fault.escape
    | '\x7b' :: rest =>
      let name := rest.takeWhile (· != '\x7d')
      match rest.dropWhile (· != '\x7d') with
      | [] => .error .escape
      | _ :: rest => pure (propertySet? name, rest)
    | '\\' :: _ => .error .escape
    | c :: rest => pure (Property.named? [c], rest)
  if !flags.unicode then .error .notUtf8
  match found with
  | some s => return (.negatedIf negated (fold flags s), rest)
  | none => .error .unknownProperty

/-- The punctuation that has a meaning in patterns. -/
def metaCharacters : List Char := "\\.+*?()|[]\x7b\x7d^$#&-~".toList

/-- The characters that may be escaped: those with a meaning, and all other ASCII characters that
are neither letters nor digits nor angle brackets. -/
def isEscapable (c : Char) : Bool :=
  metaCharacters.contains c || (c.toNat < 0x80 && !c.isAlphanum && c != '<' && c != '>')

/-- The kind of word boundary with a name. -/
def boundary? (unicode : Bool) (name : String) : Option Look :=
  match name with
  | "start" => some (.wordStart unicode)
  | "end" => some (.wordEnd unicode)
  | "start-half" => some (.wordStartHalf unicode)
  | "end-half" => some (.wordEndHalf unicode)
  | _ => none

/-- A character of the name of a word boundary. -/
def isBoundaryNameChar (c : Char) : Bool := c.isAlpha || c == '-'

/-- A word boundary, which may have a name in braces. Braces that do not begin with a letter or a
hyphen are a repetition and are left alone. -/
def boundary (flags : Flags) (cs : List Char) : Except Fault (Look × List Char) :=
  match cs with
  | '\x7b' :: rest => match skip flags rest with
    | [] => .error .repetition
    | c :: more =>
      if !isBoundaryNameChar c then .ok (.wordBoundary flags.unicode, cs)
      else
        let name := (c :: more).takeWhile isBoundaryNameChar
        match skip flags ((c :: more).dropWhile isBoundaryNameChar) with
        | '\x7d' :: rest => match boundary? flags.unicode (String.ofList name) with
          | some l => .ok (l, rest)
          | none => .error .escape
        | _ => .error .escape
  | _ => .ok (.wordBoundary flags.unicode, cs)

/-- What follows a backslash. -/
def escape (flags : Flags) : List Char → Except Fault (Item × List Char)
  | [] => .error .escape
  | c :: rest =>
    if c.isDigit then .error .backreference
    else if c = 'x' then do
      let (d, rest) ← hexEscape flags 2 rest
      if !flags.unicode && 0x80 ≤ d.toNat && d.toNat < 0x100 then .error .notUtf8
      return (.literal d, rest)
    else if c = 'u' then do
      let (d, rest) ← hexEscape flags 4 rest
      return (.literal d, rest)
    else if c = 'U' then do
      let (d, rest) ← hexEscape flags 8 rest
      return (.literal d, rest)
    else if c = 'p' ∨ c = 'P' then do
      let (s, rest) ← propertyEscape flags (c = 'P') rest
      return (.set s, rest)
    else match CharSet.perl? flags.unicode c.toLower with
      | some s =>
        if c.isUpper && !flags.unicode then .error .notUtf8
        else .ok (.set (.negatedIf c.isUpper s), rest)
      | none =>
        if isEscapable c then .ok (.literal c, rest)
        else match c with
          | 'a' => .ok (.literal '\x07', rest)
          | 'f' => .ok (.literal '\x0c', rest)
          | 't' => .ok (.literal '\t', rest)
          | 'n' => .ok (.literal '\n', rest)
          | 'r' => .ok (.literal '\r', rest)
          | 'v' => .ok (.literal '\x0b', rest)
          | 'A' => .ok (.condition .textStart, rest)
          | 'z' => .ok (.condition .textEnd, rest)
          | 'B' => .ok (.condition (.notWordBoundary flags.unicode), rest)
          | '<' => .ok (.condition (.wordStart flags.unicode), rest)
          | '>' => .ok (.condition (.wordEnd flags.unicode), rest)
          | 'b' => do
            let (l, rest) ← boundary flags rest
            return (.condition l, rest)
          | _ => .error .escape

/-! ### Bracketed classes -/

/-- The operations between sets in brackets. -/
inductive SetOp where
  | inter | diff | symmDiff

/-- An operation of sets that waits for its right side. -/
abbrev Pending := Option (SetOp × CharSet)

/-- Finishes the operation that waits, if there is one. -/
def finish (flags : Flags) (pending : Pending) (right : CharSet) : CharSet :=
  match pending with
  | none => right
  | some (op, left) =>
    let left := fold flags left
    let right := fold flags right
    match op with
    | .inter => .inter left right
    | .diff => .diff left right
    | .symmDiff => .symmDiff left right

/-- A class with a name between colons, after its opening bracket. A text that is none is left to
be read as a bracketed class. -/
def asciiClass? (flags : Flags) : List Char → Option (Except Fault CharSet × List Char)
  | ':' :: rest =>
    let (negated, rest) := match rest with
      | '^' :: more => (true, more)
      | _ => (false, rest)
    let name := rest.takeWhile (· != ':')
    match rest.dropWhile (· != ':') with
    | ':' :: ']' :: rest => (CharSet.ascii? (String.ofList name)).map fun s ↦
      if negated && !flags.unicode then (.error .notUtf8, rest)
      else (.ok (.negatedIf negated (fold flags s)), rest)
    | _ => none
  | _ => none

/-- One unit in brackets. -/
def classUnit (flags : Flags) : List Char → Except Fault (Item × List Char)
  | [] => .error .unclosedClass
  | '\\' :: rest => escape flags rest
  | c :: rest => .ok (.literal c, rest)

/-- The set of a unit in brackets. A condition is none. -/
def unitSet : Item → Except Fault CharSet
  | .literal c => .ok (.single c)
  | .set s => .ok s
  | .condition _ => .error .classItem

/-- One unit in brackets, or a range of characters. -/
def classRange (flags : Flags) (cs : List Char) : Except Fault (CharSet × List Char) := do
  let (first, rest) ← classUnit flags cs
  match skip flags rest with
  | [] => .error .unclosedClass
  | '-' :: more =>
    match skip flags more with
    | [] => .error .unclosedClass
    | next :: after =>
      if next = ']' ∨ next = '-' then return (← unitSet first, skip flags rest)
      else
        let (last, rest) ← classUnit flags (next :: after)
        match first, last with
        | .literal a, .literal b =>
          if a ≤ b then return (.range a.toNat b.toNat, rest) else .error .classRange
        | _, _ => .error .classRange
  | rest => return (← unitSet first, rest)

/-- Hyphens at the front of a class, which are members of it. -/
def leadingHyphens (flags : Flags) : Nat → List Char → Bool × List Char
  | 0, cs => (false, cs)
  | n + 1, cs => match cs with
    | '-' :: rest => (true, (leadingHyphens flags n (skip flags rest)).2)
    | _ => (false, cs)

/-- The front of a class after its opening bracket: whether it is negated, the members that may only
stand there, and the rest. -/
def classFront (flags : Flags) (cs : List Char) : Bool × CharSet × List Char :=
  let (negated, cs) := match skip flags cs with
    | '^' :: rest => (true, skip flags rest)
    | rest => (false, rest)
  let (hyphens, cs) := leadingHyphens flags cs.length cs
  if hyphens then (negated, .single '-', cs)
  else match cs with
    | ']' :: rest => (negated, .single ']', skip flags rest)
    | _ => (negated, .empty, cs)

/-- The members of a class up to its closing bracket, with the depth of nesting found. Every round
takes a character at least, so `fuel` is only there to bound the recursion. -/
def classMembers (flags : Flags) :
    Nat → Pending → CharSet → Nat → List Char → Except Fault (CharSet × Nat × List Char)
  | 0, _, _, _, _ => .error .unclosedClass
  | fuel + 1, pending, members, depth, cs => do
    match skip flags cs with
    | [] => .error .unclosedClass
    | ']' :: rest => return (finish flags pending members, depth, rest)
    | '&' :: '&' :: rest =>
      classMembers flags fuel (some (.inter, finish flags pending members)) .empty depth rest
    | '-' :: '-' :: rest =>
      classMembers flags fuel (some (.diff, finish flags pending members)) .empty depth rest
    | '~' :: '~' :: rest =>
      classMembers flags fuel (some (.symmDiff, finish flags pending members)) .empty depth rest
    | '[' :: rest => match asciiClass? flags rest with
      | some (s, rest) =>
        classMembers flags fuel pending (.union members (← s)) depth rest
      | none =>
        let (negated, front, rest) := classFront flags rest
        let (inner, innerDepth, rest) ← classMembers flags fuel none front 0 rest
        if negated && !flags.unicode then .error .notUtf8
        let inner := CharSet.negatedIf negated (fold flags inner)
        classMembers flags fuel pending (.union members inner) (max depth (innerDepth + 1)) rest
    | c :: rest =>
      let (s, rest) ← classRange flags (c :: rest)
      classMembers flags fuel pending (.union members s) depth rest

/-- A class after its opening bracket. -/
def bracketed (flags : Flags) (cs : List Char) : Except Fault (CharSet × Nat × List Char) := do
  let (negated, front, rest) := classFront flags cs
  let (members, depth, rest) ← classMembers flags (cs.length + 1) none front 0 rest
  if negated && !flags.unicode then .error .notUtf8
  return (.negatedIf negated (fold flags members), depth + 1, rest)

/-! ### Groups and settings -/

/-- The settings with one letter switched on or off. -/
def setFlag? (flags : Flags) (letter : Char) (on : Bool) : Option Flags :=
  match letter with
  | 'i' => some { flags with caseless := on }
  | 'm' => some { flags with multiLine := on }
  | 's' => some { flags with dotAll := on }
  | 'R' => some { flags with crlf := on }
  | 'u' => some { flags with unicode := on }
  | 'x' => some { flags with verbose := on }
  | 'U' => some flags
  | _ => none

/-- Setting letters up to a colon or a closing bracket, which is left in front of the rest. No
letter and no minus sign may occur twice, and a minus sign may not come last. -/
def settings (flags : Flags) (seen : List Char) : List Char → Except Fault (Flags × List Char)
  | [] => .error .flags
  | c :: rest =>
    if c = ':' ∨ c = ')' then
      if seen.head? = some '-' then .error .flags else .ok (flags, c :: rest)
    else if seen.contains c then .error .flags
    else if c = '-' then settings flags (c :: seen) rest
    else match setFlag? flags c (!seen.contains '-') with
      | some flags => settings flags (c :: seen) rest
      | none => .error .flags

/-- A character of the name of a group, given whether it is the first. -/
def isGroupNameChar (first : Bool) (c : Char) : Bool :=
  let letter := match (Unicode.Category.of c).major with
    | .letter => true
    | _ => false
  c == '_' || letter || (!first && (c == '.' || c == '[' || c == ']' ||
    (Unicode.Category.of c).major == .number))

/-- The name of a group up to its closing angle bracket. -/
def groupName (cs : List Char) : Except Fault ((List Char) × List Char) :=
  let name := cs.takeWhile (· != '>')
  match cs.dropWhile (· != '>') with
  | [] => .error .groupName
  | _ :: rest => match name with
    | [] => .error .groupName
    | first :: more =>
      if isGroupNameChar true first && more.all (isGroupNameChar false) then .ok (name, rest)
      else .error .groupName

/-- What an opening bracket opens. -/
inductive Opening where
  /-- A group, with the settings that hold inside. -/
  | group (inside : Flags) (name : Option (List Char))
  /-- Settings for the rest of the group around them. -/
  | settings (flags : Flags)

/-- What follows an opening bracket. -/
def opening (flags : Flags) (cs : List Char) : Except Fault (Opening × List Char) := do
  match skip flags cs with
  | '?' :: '=' :: _ | '?' :: '!' :: _ | '?' :: '<' :: '=' :: _ | '?' :: '<' :: '!' :: _ =>
    .error .lookAround
  | '?' :: 'P' :: '<' :: rest | '?' :: '<' :: rest =>
    let (name, rest) ← groupName rest
    return (.group flags (some name), rest)
  | '?' :: rest =>
    if rest.isEmpty then .error .unclosedGroup
    else
      let (inside, after) ← settings flags [] rest
      match after with
      | ')' :: after =>
        if rest.head? = some ')' then .error .missingOperand else return (.settings inside, after)
      | after => return (.group inside none, after.drop 1)
  | rest => return (.group flags none, rest)

/-! ### Repetition -/

/-- A decimal number between blanks, below `2 ^ 32`. -/
def count (flags : Flags) (cs : List Char) : Except Fault (Nat × List Char) :=
  let cs := cs.dropWhile Unicode.isBlank
  let body := if flags.verbose then skip flags cs else cs
  let digits := body.takeWhile Char.isDigit
  let rest := (body.dropWhile Char.isDigit).dropWhile Unicode.isBlank
  let value := digits.foldl (fun n c ↦ 10 * n + (c.toNat - '0'.toNat)) 0
  if digits.isEmpty then .error .repetition
  else if 4294967296 ≤ value then .error .repetition
  else .ok (value, rest)

/-- A lazy mark after a repetition changes which match is found, not whether there is one. -/
def skipLazy : List Char → List Char
  | '?' :: rest => rest
  | rest => rest

/-- The bounds of a repetition after its opening brace. -/
def bounds (flags : Flags) (cs : List Char) : Except Fault ((Nat × Option Nat) × List Char) := do
  let (least, rest) ← count flags (skip flags cs)
  match rest with
  | '\x7d' :: rest => return ((least, some least), skipLazy (skip flags rest))
  | ',' :: rest =>
    match skip flags rest with
    | '\x7d' :: rest => return ((least, none), skipLazy (skip flags rest))
    | rest =>
      let (most, rest) ← count flags rest
      match rest with
      | '\x7d' :: rest =>
        if least ≤ most then return ((least, some most), skipLazy (skip flags rest))
        else .error .repetition
      | _ => .error .repetition
  | _ => .error .repetition

/-! ### Patterns -/

/-- A finished part of a pattern. -/
structure Piece where
  pattern : Pattern
  /-- How deeply it is nested. -/
  depth : Nat
  /-- It may be repeated; a change of settings may not. -/
  operand : Bool

/-- A group that is being read. -/
structure Group where
  /-- The settings to return to at its end. -/
  outside : Flags
  /-- The finished alternatives, the last one first. -/
  alternatives : List Piece
  /-- The finished parts of the alternative that is being read, the last one first. -/
  pieces : List Piece

/-- The parts of an alternative put together. -/
def joinPieces : List Piece → Piece
  | [] => ⟨.empty, 0, false⟩
  | [p] => p
  | last :: rest => rest.foldl
      (fun joined p ↦ ⟨.seq p.pattern joined.pattern, max (p.depth + 1) joined.depth, true⟩)
      ⟨last.pattern, last.depth + 1, true⟩

/-- The alternatives of a group put together. -/
def joinAlternatives : List Piece → Piece
  | [] => ⟨.empty, 0, false⟩
  | [p] => p
  | last :: rest => rest.foldl
      (fun joined p ↦ ⟨.alt p.pattern joined.pattern, max (p.depth + 1) joined.depth, true⟩)
      ⟨last.pattern, last.depth + 1, true⟩

/-- The group as one part. -/
def Group.close (g : Group) : Piece :=
  joinAlternatives (joinPieces g.pieces :: g.alternatives)

/-- The group with one more part. -/
def Group.push (g : Group) (p : Piece) : Group := { g with pieces := p :: g.pieces }

/-- The group with its last part repeated. -/
def Group.repeatLast (g : Group) (least : Nat) (most : Option Nat) : Except Fault Group :=
  match g.pieces with
  | p :: rest =>
    if p.operand then
      .ok { g with pieces := ⟨.repeated p.pattern least most, p.depth + 1, true⟩ :: rest }
    else .error .missingOperand
  | [] => .error .missingOperand

/-- The unit as a part of a pattern. -/
def unitPiece (flags : Flags) : Item → Piece
  | .literal c => ⟨.chars (literalSet flags c), 0, true⟩
  | .set s => ⟨.chars s, 0, true⟩
  | .condition l => ⟨.look l, 0, true⟩

/-- The set of a dot. -/
def dotSet (flags : Flags) : CharSet :=
  if flags.dotAll then .any
  else if flags.crlf then .complement (.ofList ['\n', '\r'])
  else .complement (.single '\n')

/-- Reads a pattern, given the settings in force, the names of groups so far, and the groups around
the one that is being read. Every round takes a character at least, so `fuel` is only there to
bound the recursion. -/
def patternFrom : Nat → Flags → List (List Char) → List Group → Group → List Char →
    Except Fault Piece
  | 0, _, _, _, _, _ => .error .tooDeep
  | fuel + 1, flags, names, around, group, cs => do
    match skip flags cs with
    | [] =>
      match around with
      | [] => return group.close
      | _ => .error .unclosedGroup
    | '(' :: rest =>
      let (opened, rest) ← opening flags rest
      match opened with
      | .settings flags => patternFrom fuel flags names around (group.push ⟨.empty, 0, false⟩) rest
      | .group inside name =>
        match name with
        | some n =>
          if names.contains n then .error .duplicateGroupName
          else patternFrom fuel inside (n :: names) (group :: around) ⟨flags, [], []⟩ rest
        | none => patternFrom fuel inside names (group :: around) ⟨flags, [], []⟩ rest
    | ')' :: rest =>
      match around with
      | [] => .error .unopenedGroup
      | outer :: around =>
        let inner := group.close
        patternFrom fuel group.outside names around
          (outer.push ⟨inner.pattern, inner.depth + 1, true⟩) rest
    | '|' :: rest =>
      patternFrom fuel flags names around
        ⟨group.outside, joinPieces group.pieces :: group.alternatives, []⟩ rest
    | '[' :: rest =>
      let (s, depth, rest) ← bracketed flags rest
      patternFrom fuel flags names around (group.push ⟨.chars s, depth, true⟩) rest
    | '?' :: rest =>
      patternFrom fuel flags names around (← group.repeatLast 0 (some 1)) (skipLazy rest)
    | '*' :: rest =>
      patternFrom fuel flags names around (← group.repeatLast 0 none) (skipLazy rest)
    | '+' :: rest =>
      patternFrom fuel flags names around (← group.repeatLast 1 none) (skipLazy rest)
    | '\x7b' :: rest =>
      let _ ← group.repeatLast 0 none
      let ((least, most), rest) ← bounds flags rest
      patternFrom fuel flags names around (← group.repeatLast least most) rest
    | '\\' :: rest =>
      let (u, rest) ← escape flags rest
      patternFrom fuel flags names around (group.push (unitPiece flags u)) rest
    | '.' :: rest =>
      if !flags.unicode then .error .notUtf8
      else patternFrom fuel flags names around (group.push ⟨.chars (dotSet flags), 0, true⟩) rest
    | '^' :: rest =>
      let l := if flags.multiLine then Look.lineStart flags.crlf else .textStart
      patternFrom fuel flags names around (group.push ⟨.look l, 0, true⟩) rest
    | '$' :: rest =>
      let l := if flags.multiLine then Look.lineEnd flags.crlf else .textEnd
      patternFrom fuel flags names around (group.push ⟨.look l, 0, true⟩) rest
    | c :: rest =>
      patternFrom fuel flags names around (group.push (unitPiece flags (.literal c))) rest

/-- The deepest nesting that is accepted. -/
def maxDepth : Nat := 250

/-- The largest count (`Pattern.weight`) that is accepted. It approximates a limit on the size of
the compiled pattern, where classes count by their ranges, so the two may differ about a large
pattern or one with large classes. -/
def maxWeight : Nat := 300000

end Parser

/-- Reads a pattern under the settings it starts with. -/
def parse (flags : Flags) (source : List Char) : Except Fault Pattern := do
  let p ← Parser.patternFrom (source.length + 1) flags [] [] ⟨flags, [], []⟩ source
  if Parser.maxDepth < p.depth then .error .tooDeep
  else if Parser.maxWeight < p.pattern.weight then .error .tooLarge
  else return p.pattern

end MiniLisp.Regex
