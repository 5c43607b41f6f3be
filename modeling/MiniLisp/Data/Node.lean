import MiniLisp.Data.Native
import MiniLisp.Number.Text
import MiniLisp.Regex.Literal
import MiniLisp.Source.Span
import MiniLisp.Text.Quoted

/-!
# Nodes

A node is a piece of data together with the span of text it came from. Programs are data too: what
the reader makes and what evaluation takes and gives are all nodes.

Data is never changed once it is made, so a node is a plain value. What remains of identity is in
labels. A pair has a label as soon as it takes part in evaluation, and procedures and transformers
have one from the start; two of them are *identical* when their labels agree. The reader makes pairs
without a label, which are identical to nothing.

A closure holds the number of the scope it was made in and not the scope itself, so nodes are finite
even where a scope holds a closure over that very scope.
-/

namespace MiniLisp

/-- The mark by which pairs, procedures and transformers are told apart. -/
abbrev Label := Nat

/-- The number of a scope in the store of scopes. -/
abbrev ScopeId := Nat

/-- Data without parts. -/
inductive Atom where
  | symbol (name : String)
  | number (value : Number)
  | boolean (value : Bool)
  | string (value : String)
  | regex (literal : RegexLiteral)
  /-- The empty list. -/
  | nil
  /-- The result of forms that have none. -/
  | undefined
  | native (procedure : Native)

/-- The parameters of a procedure: names for the first arguments, and a name for the list of all
further ones if those are accepted. -/
structure Params where
  fixed : List String
  rest : Option String
deriving DecidableEq

/-- Data with the span it came from. -/
inductive Node where
  | atom (value : Atom) (span : Span)
  | pair (label : Option Label) (car cdr : Node) (span : Span)
  /-- A procedure written in the language. -/
  | closure (label : Label) (name : Option String) (params : Params) (body : List Node)
      (scope : ScopeId) (span : Span)
  /-- What a macro name is bound to: `param` is bound to the operands of the form, unevaluated, and
  `body` computes the form that takes its place. -/
  | transformer (label : Label) (name param : String) (body : List Node) (scope : ScopeId)
      (span : Span)

instance : Inhabited Node := ⟨.atom .nil .nowhere⟩

/-- Induction over nodes: to the parts of a pair, and to the forms of a body. -/
@[induction_eliminator]
theorem Node.induct {motive : Node → Prop}
    (atom : ∀ value span, motive (.atom value span))
    (pair : ∀ label car cdr span, motive car → motive cdr → motive (.pair label car cdr span))
    (closure : ∀ label name params body scope span, (∀ form ∈ body, motive form) →
      motive (.closure label name params body scope span))
    (transformer : ∀ label name param body scope span, (∀ form ∈ body, motive form) →
      motive (.transformer label name param body scope span))
    (n : Node) : motive n :=
  @Node.rec motive (fun body ↦ ∀ form ∈ body, motive form) atom pair closure transformer
    (fun _ h ↦ absurd h List.not_mem_nil)
    (fun _ _ hfirst hrest _ h ↦ (List.mem_cons.1 h).elim (fun e ↦ e ▸ hfirst) (hrest _)) n

/-- A procedure written in the language, apart from any span. -/
structure Closure where
  label : Label
  name : Option String
  params : Params
  body : List Node
  scope : ScopeId

/-- A macro, apart from any span. -/
structure Transformer where
  label : Label
  name : String
  param : String
  body : List Node
  scope : ScopeId

/-- What can be applied to arguments. -/
inductive Procedure where
  | native (procedure : Native)
  | closure (procedure : Closure)

/-- The name of a procedure, if it has one. -/
def Procedure.name? : Procedure → Option String
  | native p => some p.name
  | closure p => p.name

/-! ### Atoms -/

namespace Atom

/-- The written form of an atom. Strings have their quotes. -/
def text : Atom → String
  | symbol name => name
  | number n => n.text
  | boolean b => if b then "#t" else "#f"
  | string s => Text.Quoted.literal s
  | regex r => r.text
  | nil => "()"
  | undefined => "#<undefined>"
  | native p => "#<primitive:" ++ p.name ++ ">"

/-- The name of the type of an atom. -/
def typeName : Atom → String
  | symbol _ => "symbol"
  | number _ => "number"
  | boolean _ => "boolean"
  | string _ => "string"
  | regex _ => "regex"
  | nil => "nil"
  | undefined => "undefined"
  | native _ => "function"

/-- Equality of atoms: numbers by value whatever form they are kept in, natives by name. -/
def same : Atom → Atom → Bool
  | symbol a, symbol b => a == b
  | number a, number b => a.same b
  | boolean a, boolean b => a == b
  | string a, string b => a == b
  | regex a, regex b => a == b
  | nil, nil => true
  | undefined, undefined => true
  | native a, native b => a.name == b.name
  | _, _ => false

/-- False, the empty list and the missing result are the only atoms that do not count as true. -/
def isTruthy : Atom → Bool
  | boolean b => b
  | nil => false
  | undefined => false
  | _ => true

end Atom

/-! ### Parts of a node -/

namespace Node

/-- The symbol with a name. -/
def symbol (name : String) (span : Span) : Node := .atom (.symbol name) span

/-- The number as a node. -/
def number (n : Number) (span : Span) : Node := .atom (.number n) span

/-- The truth value as a node. -/
def boolean (b : Bool) (span : Span) : Node := .atom (.boolean b) span

/-- The string as a node. -/
def string (s : String) (span : Span) : Node := .atom (.string s) span

/-- The empty list. -/
def nil (span : Span) : Node := .atom .nil span

/-- The missing result. -/
def undefined (span : Span) : Node := .atom .undefined span

/-- The span of a node. -/
def span : Node → Span
  | atom _ s => s
  | pair _ _ _ s => s
  | closure _ _ _ _ _ s => s
  | transformer _ _ _ _ _ s => s

/-- The same data with another span. -/
def withSpan : Node → Span → Node
  | atom a _, s => .atom a s
  | pair l a d _, s => .pair l a d s
  | closure l n p b c _, s => .closure l n p b c s
  | transformer l n p b c _, s => .transformer l n p b c s

@[simp] theorem span_withSpan (n : Node) (s : Span) : (n.withSpan s).span = s := by
  cases n <;> rfl

/-- The name of a symbol. -/
def symbol? : Node → Option String
  | atom (.symbol name) _ => some name
  | _ => none

/-- The first part of a pair. -/
def car? : Node → Option Node
  | pair _ a _ _ => some a
  | _ => none

/-- The second part of a pair. -/
def cdr? : Node → Option Node
  | pair _ _ d _ => some d
  | _ => none

/-- The number in a node. -/
def number? : Node → Option Number
  | atom (.number n) _ => some n
  | _ => none

/-- The procedure in a node. -/
def procedure? : Node → Option Procedure
  | atom (.native p) _ => some (.native p)
  | closure label name params body scope _ => some (.closure ⟨label, name, params, body, scope⟩)
  | _ => none

/-- The transformer in a node. -/
def transformer? : Node → Option Transformer
  | transformer label name param body scope _ => some ⟨label, name, param, body, scope⟩
  | _ => none

/-- The node counts as true. -/
def isTruthy : Node → Bool
  | atom a _ => a.isTruthy
  | _ => true

/-- The name of the type of a node. -/
def typeName : Node → String
  | atom a _ => a.typeName
  | pair .. => "pair"
  | closure .. => "function"
  | transformer .. => "macro"

end Node

end MiniLisp
