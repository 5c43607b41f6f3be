import MiniLisp.Data.List
import MiniLisp.Reader.Error

/-!
# Moving what was read

A text that stands further on in another text gives the same data there, only with all spans moved
by the bytes in front of it. Moving goes through every span of a node, those of the inner pairs of
lists and of the bodies of procedures included (`Node.shift`).

Lists are moved by moving their elements, their tail and the span of the whole
(`shift_listWithTail`): the spans of inner pairs are made of these by taking ends and the larger of
two ends, and both go along with a move.
-/

namespace MiniLisp

namespace Span

theorem shift_merge (a b : Span) (k : Nat) :
    (a.merge b).shift k = (a.shift k).merge (b.shift k) := by
  simp only [merge, shift, Span.mk.injEq]
  omega

end Span

/-- The token further on in a text. -/
def Token.shift (k : Nat) (t : Token) : Token := { t with span := t.span.shift k }

/-- The error further on in a text. -/
def ReadError.shift (k : Nat) : ReadError → ReadError
  | lexical fault span => .lexical fault (span.shift k)
  | unexpectedToken found wanted => .unexpectedToken (found.shift k) wanted
  | unexpectedEnd missing => .unexpectedEnd missing
  | misplacedDot span => .misplacedDot (span.shift k)

namespace Node

mutual

/-- The same data from further on in a text. -/
def shift (k : Nat) : Node → Node
  | atom value span => .atom value (span.shift k)
  | pair label car cdr span => .pair label (shift k car) (shift k cdr) (span.shift k)
  | closure label name params body scope span =>
    .closure label name params (shiftAll k body) scope (span.shift k)
  | transformer label name param body scope span =>
    .transformer label name param (shiftAll k body) scope (span.shift k)

/-- The same nodes from further on in a text. -/
def shiftAll (k : Nat) : List Node → List Node
  | [] => []
  | n :: rest => shift k n :: shiftAll k rest

end

variable (k : Nat)

@[simp] theorem span_shift (n : Node) : (n.shift k).span = n.span.shift k := by
  cases n <;> simp only [shift, span]

@[simp] theorem shift_nil (s : Span) : (nil s).shift k = nil (s.shift k) := by
  simp only [nil, shift]

@[simp] theorem shift_symbol (name : String) (s : Span) :
    (symbol name s).shift k = symbol name (s.shift k) := by
  simp only [symbol, shift]

theorem shift_withSpan (n : Node) (s : Span) :
    (n.withSpan s).shift k = (n.shift k).withSpan (s.shift k) := by
  cases n <;> simp only [withSpan, shift]

/-- The inner pairs of a list move with its elements, its tail and its end. -/
theorem shift_chain (stop : Nat) (items : List Node) (tail : Node) :
    (chain stop items tail).shift k = chain (stop + k) (items.map (shift k)) (tail.shift k) := by
  induction items with
  | nil => rfl
  | cons a items ih =>
    rw [chain_cons, shift, ih, List.map_cons, chain_cons, ← ih, span_shift, span_shift]
    simp only [Span.shift, Nat.add_max_add_right]

theorem shift_listWithTail (items : List Node) (tail : Node) (s : Span) :
    (listWithTail items tail s).shift k =
      listWithTail (items.map (shift k)) (tail.shift k) (s.shift k) := by
  rw [listWithTail, shift_withSpan, shift_chain]
  rfl

theorem shift_ofList (items : List Node) (s : Span) :
    (ofList items s).shift k = ofList (items.map (shift k)) (s.shift k) := by
  rw [ofList, shift_listWithTail, shift_nil]
  rfl

theorem shift_tagged (name : String) (mark : Span) (n : Node) :
    (tagged name mark n).shift k = tagged name (mark.shift k) (n.shift k) := by
  rw [tagged, shift_ofList, Span.shift_merge, tagged, span_shift]
  simp only [List.map_cons, List.map_nil, shift_symbol]

end Node

end MiniLisp
