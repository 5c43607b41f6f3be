import MiniLisp.Regex.CharSet
import MiniLisp.Unicode.Pictographic
import MiniLisp.Unicode.Scripts

/-!
# Properties by name

A regular expression names a Unicode property in braces. Names are compared loosely: case, spaces,
hyphens and underscores do not count, nor does a leading `is`. A name alone is a property that a
character has or has not, a general category or a script; `gc=…` asks for a category and `sc=…` for
a script.
-/

namespace MiniLisp.Regex.Property

open Unicode (Category MajorClass Ranges)

/-- The form of a name in which loose comparison is equality. -/
def normalize (name : List Char) : String :=
  let bare := (name.filter fun c ↦ c != ' ' && c != '_' && c != '-').map Char.toLower
  String.ofList <| match bare with
    | 'i' :: 's' :: rest => if rest.isEmpty || rest = ['c'] then bare else rest
    | _ => bare

/-- The characters of a major class. -/
def ofMajor (m : MajorClass) : CharSet := .property fun c ↦ (Category.of c).major == m

/-- The characters of a general category. -/
def ofCategory (k : Category) : CharSet := .property fun c ↦ Category.of c == k

/-- The characters in a list of ranges. -/
def ofRanges (rs : Ranges) : CharSet := .property fun c ↦ rs.contains c.toNat

/-- Upper, lower and title case letters. -/
def casedLetter : CharSet :=
  .union (ofCategory .Lu) (.union (ofCategory .Ll) (ofCategory .Lt))

/-- The general category, or union of categories, with a name. -/
def category? : String → Option CharSet
  | "any" => some .any
  | "assigned" => some (.complement (ofCategory .Cn))
  | "ascii" => some (.range 0 0x7F)
  | "l" | "letter" => some (ofMajor .letter)
  | "lc" | "casedletter" => some casedLetter
  | "lu" | "uppercaseletter" => some (ofCategory .Lu)
  | "ll" | "lowercaseletter" => some (ofCategory .Ll)
  | "lt" | "titlecaseletter" => some (ofCategory .Lt)
  | "lm" | "modifierletter" => some (ofCategory .Lm)
  | "lo" | "otherletter" => some (ofCategory .Lo)
  | "m" | "mark" | "combiningmark" => some (ofMajor .mark)
  | "mn" | "nonspacingmark" => some (ofCategory .Mn)
  | "mc" | "spacingmark" => some (ofCategory .Mc)
  | "me" | "enclosingmark" => some (ofCategory .Me)
  | "n" | "number" => some (ofMajor .number)
  | "nd" | "decimalnumber" | "digit" => some (ofCategory .Nd)
  | "nl" | "letternumber" => some (ofCategory .Nl)
  | "no" | "othernumber" => some (ofCategory .No)
  | "p" | "punctuation" | "punct" => some (ofMajor .punctuation)
  | "pc" | "connectorpunctuation" => some (ofCategory .Pc)
  | "pd" | "dashpunctuation" => some (ofCategory .Pd)
  | "ps" | "openpunctuation" => some (ofCategory .Ps)
  | "pe" | "closepunctuation" => some (ofCategory .Pe)
  | "pi" | "initialpunctuation" => some (ofCategory .Pi)
  | "pf" | "finalpunctuation" => some (ofCategory .Pf)
  | "po" | "otherpunctuation" => some (ofCategory .Po)
  | "s" | "symbol" => some (ofMajor .symbol)
  | "sm" | "mathsymbol" => some (ofCategory .Sm)
  | "sc" | "currencysymbol" => some (ofCategory .Sc)
  | "sk" | "modifiersymbol" => some (ofCategory .Sk)
  | "so" | "othersymbol" => some (ofCategory .So)
  | "z" | "separator" => some (ofMajor .separator)
  | "zs" | "spaceseparator" => some (ofCategory .Zs)
  | "zl" | "lineseparator" => some (ofCategory .Zl)
  | "zp" | "paragraphseparator" => some (ofCategory .Zp)
  | "c" | "other" => some (ofMajor .other)
  | "cc" | "control" | "cntrl" => some (ofCategory .Cc)
  | "cf" | "format" => some (ofCategory .Cf)
  | "co" | "privateuse" => some (ofCategory .Co)
  | "cn" | "unassigned" => some (ofCategory .Cn)
  | _ => none

/-- The script with a name. -/
def script? : String → Option CharSet
  | "arabic" | "arab" => some (ofRanges Unicode.arabicRanges)
  | "cyrillic" | "cyrl" => some (ofRanges Unicode.cyrillicRanges)
  | "greek" | "grek" => some (ofRanges Unicode.greekRanges)
  | "han" | "hani" => some (ofRanges Unicode.hanRanges)
  | "hebrew" | "hebr" => some (ofRanges Unicode.hebrewRanges)
  | "hiragana" | "hira" => some (ofRanges Unicode.hiraganaRanges)
  | "katakana" | "kana" => some (ofRanges Unicode.katakanaRanges)
  | "latin" | "latn" => some (ofRanges Unicode.latinRanges)
  | _ => none

/-- The property with a name that a character has or has not. -/
def binary? : String → Option CharSet
  | "extendedpictographic" | "extpict" => some (.property Unicode.isPictographic)
  | "whitespace" | "wspace" | "space" => some (.property Unicode.isBlank)
  | "uppercase" | "upper" =>
    some (.union (ofCategory .Lu) (ofRanges Unicode.otherUppercaseRanges))
  | "lowercase" | "lower" =>
    some (.union (ofCategory .Ll) (ofRanges Unicode.otherLowercaseRanges))
  | _ => none

/-- The property with a name and no value. -/
def named? (name : List Char) : Option CharSet :=
  let key := normalize name
  binary? key <|> category? key <|> script? key

/-- The property with a name and a value. -/
def valued? (name value : List Char) : Option CharSet :=
  match normalize name with
  | "gc" | "generalcategory" => category? (normalize value)
  | "sc" | "script" | "scx" | "scriptextensions" => script? (normalize value)
  | _ => none

end MiniLisp.Regex.Property
