import MiniLisp.Data.List
import MiniLisp.Text.Inspected

/-!
# Inspected data

The form in which data is shown with everything it is made of: its kind, its parts and their spans.
Of a procedure the scope is not shown, which usually holds the procedure itself.
-/

namespace MiniLisp

open Text (Inspected.quote Inspected.list Inspected.option Inspected.record)

/-- The shown form of a value with one part. -/
def inspectTagged (tag shown : String) : String := tag ++ "(" ++ shown ++ ")"

/-- The shown form of a span. -/
def Span.inspect (s : Span) : String :=
  Inspected.record "Span" [("start", toString s.start), ("end", toString s.stop)] false

/-- The shown form of a number. -/
def Number.inspect : Number → String
  | integer n => inspectTagged "Integer" (Number.integer n).text
  | big n => inspectTagged "BigInteger" (Number.big n).text
  | float x => inspectTagged "Float" (Number.float x).text

/-- The shown form of a regular expression literal. -/
def RegexLiteral.inspect (r : RegexLiteral) : String := inspectTagged "Regex" r.text

/-- The shown form of a native procedure. -/
def Native.inspect (p : Native) : String := inspectTagged "Primitive" p.name

/-- The shown form of parameters. -/
def Params.inspect (p : Params) : String :=
  let fixed := Inspected.list (p.fixed.map Inspected.quote)
  match p.rest with
  | none => inspectTagged "Fixed" fixed
  | some rest => inspectTagged "Rest" (fixed ++ ", " ++ Inspected.quote rest)

/-- The shown form of data without parts. -/
def Atom.inspect : Atom → String
  | symbol name => inspectTagged "Symbol" (Inspected.quote name)
  | number n => inspectTagged "Number" n.inspect
  | boolean b => inspectTagged "Boolean" (if b then "true" else "false")
  | string s => inspectTagged "String" (Inspected.quote s)
  | regex r => inspectTagged "Regex" r.inspect
  | nil => "Nil"
  | undefined => "Undefined"
  | native p => inspectTagged "Procedure" p.inspect

namespace Node

/-- The shown form of a closure, given that of its body. -/
def inspectClosure (name : Option String) (params : Params) (body : List String) : String :=
  Inspected.record "Lambda" [("name", Inspected.option (name.map Inspected.quote)),
    ("params", params.inspect), ("body", Inspected.list body)] true

/-- The shown form of a macro. -/
def inspectTransformer (name param : String) : String :=
  Inspected.record "Macro" [("name", Inspected.quote name), ("param", Inspected.quote param)] true

mutual

/-- The shown form of the data in a node. -/
def inspectData : Node → String
  | atom a _ => a.inspect
  | pair _ a d _ => inspectTagged "Pair"
      (Inspected.record "Pair" [("car", a.inspect), ("cdr", d.inspect)] false)
  | closure _ name params body _ _ =>
    inspectTagged "Procedure" (inspectClosure name params (inspectAll body))
  | transformer _ name param _ _ _ => inspectTagged "Macro" (inspectTransformer name param)

/-- The shown form of a node: its data and its span. -/
def inspect : Node → String
  | atom a s => Inspected.record "Node" [("kind", a.inspect), ("span", s.inspect)] false
  | pair _ a d s => Inspected.record "Node" [("kind", inspectTagged "Pair"
      (Inspected.record "Pair" [("car", a.inspect), ("cdr", d.inspect)] false)),
      ("span", s.inspect)] false
  | closure _ name params body _ s => Inspected.record "Node" [("kind",
      inspectTagged "Procedure" (inspectClosure name params (inspectAll body))),
      ("span", s.inspect)] false
  | transformer _ name param _ _ s => Inspected.record "Node"
      [("kind", inspectTagged "Macro" (inspectTransformer name param)), ("span", s.inspect)] false

/-- The shown forms of the forms of a body. -/
def inspectAll : List Node → List String
  | [] => []
  | n :: ns => n.inspect :: inspectAll ns

end

/-- The shown form of the data in a node, without the wrapping around a procedure or a macro. -/
def inspectBare : Node → String
  | atom (.native p) _ => p.inspect
  | closure _ name params body _ _ => inspectClosure name params (inspectAll body)
  | transformer _ name param _ _ _ => inspectTransformer name param
  | n => n.inspectData

end Node

end MiniLisp
