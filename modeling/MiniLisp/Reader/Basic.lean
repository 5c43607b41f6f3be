import MiniLisp.Data.List
import MiniLisp.Reader.Error
import MiniLisp.Token.Lexer

/-!
# The reader

The reader turns tokens into forms. It goes through the tokens once, from left to right, with a
stack of the constructs that are open: lists that wait for elements, and marks that wait for the
form they apply to. A finished form goes to the construct on top (`Reader.push`); it completes
marks, and becomes an element of a list, its tail, or a form of the program.

So the depth to which forms may be nested is not limited, and a text is rejected at the first token
that cannot be part of any program.
-/

namespace MiniLisp

namespace Reader

/-! ### Atoms -/

/-- The source and the flags of a regular expression literal: what stands between the first and the
last slash, and what follows it. -/
def splitRegex (text : List Char) : List Char × List Char :=
  let flags := (text.reverse.takeWhile (· != '/')).reverse
  let front := (text.reverse.dropWhile (· != '/')).reverse
  if front.length ≤ 1 then (text, []) else ((front.drop 1).dropLast, flags)

/-- The node of a token that stands for an atom. -/
def atom (t : Token) : Except ReadError Node :=
  match t.kind with
  | .number => match Number.ofLiteral? t.text with
    | some n => .ok (.number n t.span)
    | none => .error (.lexical (.invalidNumber t.text) t.span)
  | .boolean => .ok (.boolean (t.text == "#t") t.span)
  | .string => match Text.Quoted.decode (t.text.toList.drop 1).dropLast with
    | .ok s => .ok (.string (String.ofList s) t.span)
    | .error (.unknownEscape c) => .error (.lexical (.unknownEscape c) t.span)
    | .error .dangling => .error (.lexical .unterminatedString t.span)
  | .regex =>
    let (source, flags) := splitRegex t.text.toList
    match RegexLiteral.make (String.ofList source) (String.ofList flags) with
    | .ok r => .ok (.atom (.regex r) t.span)
    | .error cause => .error (.lexical (.invalidRegex cause) t.span)
  | .symbol => .ok (.symbol t.text t.span)
  | .openString => .error (.lexical .unterminatedString t.span)
  | .invalid => .error (.lexical (.invalidToken t.text) t.span)
  | _ => .error (.unexpectedToken t .atom)

/-! ### Open constructs -/

/-- How far a list has got with its dot. -/
inductive DotState where
  | absent
  /-- The dot was read and the tail was not. -/
  | waiting (span : Span)
  /-- The tail was read, so the list has to end. -/
  | filled (tail : Node)

/-- A construct that is open. -/
inductive Frame where
  /-- A list, with the offset of its opening bracket and its elements so far, the last one first. -/
  | list (start : Nat) (items : List Node) (dot : DotState)
  /-- A mark. -/
  | mark (mark : QuoteMark) (span : Span)

/-- The open constructs, the innermost first, and the forms read so far, the last one first. -/
structure State where
  stack : List Frame
  forms : List Node

/-- The state before the first token. -/
def State.initial : State := ⟨[], []⟩

/-- Hands a finished form to the construct that waits for it. -/
def push (forms : List Node) (n : Node) : List Frame → Except ReadError State
  | [] => .ok ⟨[], n :: forms⟩
  | .mark m span :: rest => push forms (.tagged m.name span n) rest
  | .list start items dot :: rest => match dot with
    | .absent => .ok ⟨.list start (n :: items) .absent :: rest, forms⟩
    | .waiting _ => .ok ⟨.list start items (.filled n) :: rest, forms⟩
    | .filled _ => .error (.misplacedDot n.span)

/-- A dot needs an element before it, and a list has only one. -/
def dot (st : State) (span : Span) : Except ReadError State :=
  match st.stack with
  | .list start (n :: items) .absent :: rest =>
    .ok ⟨.list start (n :: items) (.waiting span) :: rest, st.forms⟩
  | _ => .error (.misplacedDot span)

/-- A closing bracket finishes the list on top. -/
def close (st : State) (t : Token) : Except ReadError State :=
  match st.stack with
  | .list start items dot :: rest =>
    let span : Span := ⟨start, t.span.stop⟩
    match dot with
    | .absent =>
      push st.forms (if items.isEmpty then .nil span else .ofList items.reverse span) rest
    | .filled tail => push st.forms (.listWithTail items.reverse tail span) rest
    | .waiting dotSpan => .error (.misplacedDot dotSpan)
  | _ => .error (.unexpectedToken t .expression)

/-- Opens a construct. -/
def State.openFrame (st : State) (f : Frame) : State := ⟨f :: st.stack, st.forms⟩

/-- One token. -/
def step (st : State) (t : Token) : Except ReadError State :=
  match t.kind with
  | .leftParen => .ok (st.openFrame (.list t.span.start [] .absent))
  | .rightParen => close st t
  | .dot => dot st t.span
  | .quote => .ok (st.openFrame (.mark .quote t.span))
  | .quasiquote => .ok (st.openFrame (.mark .quasiquote t.span))
  | .unquote => .ok (st.openFrame (.mark .unquote t.span))
  | .splice => .ok (st.openFrame (.mark .splice t.span))
  | _ => do push st.forms (← atom t) st.stack

/-- All tokens, from a state on. -/
def steps (st : State) : List Token → Except ReadError State
  | [] => .ok st
  | t :: ts => match step st t with
    | .ok st => steps st ts
    | .error e => .error e

/-- The forms of a state in which nothing is open. -/
def finish (st : State) : Except ReadError (List Node) :=
  match st.stack with
  | [] => .ok st.forms.reverse
  | .list .. :: _ => .error (.unexpectedEnd .closing)
  | .mark m _ :: _ => .error (.unexpectedEnd (.operand m))

end Reader

/-- The forms that a list of tokens stands for. -/
def readTokens (tokens : List Token) : Except ReadError (List Node) :=
  match Reader.steps .initial tokens with
  | .ok st => Reader.finish st
  | .error e => .error e

/-- The forms of a source text. -/
def read (source : String) : Except ReadError (List Node) := readTokens (tokenize source)

end MiniLisp
