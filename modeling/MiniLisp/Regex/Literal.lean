import MiniLisp.Regex.Parser

/-!
# Regular expression literals

A literal `/source/flags` keeps both parts as they were written. In the source an escaped slash
stands for a slash. Of the flags only `i`, `m`, `s` and `x` have an effect; the others are
remembered.
-/

namespace MiniLisp

/-- A regular expression literal. -/
structure RegexLiteral where
  source : String
  flags : String
deriving DecidableEq, Inhabited

namespace RegexLiteral

/-- A pattern that could not be read, and what is wrong with it. -/
structure Invalid where
  pattern : String
  fault : Regex.Fault
deriving DecidableEq

/-- The source of a literal with its escaped slashes replaced by slashes. -/
def unescapeSlashes : List Char → List Char
  | '\\' :: '/' :: rest => '/' :: unescapeSlashes rest
  | c :: rest => c :: unescapeSlashes rest
  | [] => []

/-- The settings that the flags of a literal ask for. -/
def settings (flags : String) : Regex.Flags where
  caseless := flags.toList.contains 'i'
  multiLine := flags.toList.contains 'm'
  dotAll := flags.toList.contains 's'
  crlf := false
  unicode := true
  verbose := flags.toList.contains 'x'

/-- The pattern of a literal. -/
def pattern (r : RegexLiteral) : Except Regex.Fault Regex.Pattern :=
  Regex.parse (settings r.flags) (unescapeSlashes r.source.toList)

/-- The literal with a source and flags, if its pattern can be read. -/
def make (source flags : String) : Except Invalid RegexLiteral :=
  let r : RegexLiteral := ⟨source, flags⟩
  match r.pattern with
  | .ok _ => .ok r
  | .error fault => .error ⟨String.ofList (unescapeSlashes source.toList), fault⟩

/-- The literal matches somewhere in a text. -/
def matchesIn (r : RegexLiteral) (text : String) : Bool :=
  match r.pattern with
  | .ok p => p.matchesIn text
  | .error _ => false

/-- The written form. -/
def text (r : RegexLiteral) : String := "/" ++ r.source ++ "/" ++ r.flags

end RegexLiteral

end MiniLisp
