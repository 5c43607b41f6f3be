import MiniLisp.Proofs.Data.Shift
import MiniLisp.Proofs.Reading.Grammar
import MiniLisp.Proofs.Token.Extent

/-!
# Reading further on

The tokens of a text are the same wherever the text stands, up to a move (`tokensFrom_shift`), and
what is read from tokens that are moved is moved (`steps_shift`, `readTokens_shift`). So a text has
one reading, from which its readings in all places follow.

The reader's state moves with its open constructs and its forms. What was read before the moved
tokens came stays where it is: it lies under the forms that are read from them (`State.shift`).
-/

namespace MiniLisp

namespace Lexer

/-- The tokens of a text that begins further on. -/
theorem tokensFrom_shift (offset k : Nat) (cs : List Char) :
    tokensFrom (offset + k) cs = (tokensFrom offset cs).map (Token.shift k) := by
  induction cs using text_induct generalizing offset with
  | nil => rw [tokensFrom_nil, tokensFrom_nil, List.map_nil]
  | separator c rest hseparator ih =>
    rw [tokensFrom_separator hseparator, tokensFrom_separator hseparator, Nat.add_right_comm, ih]
  | comment comment rest hcomment hrest ih =>
    rw [tokensFrom_comment hcomment hrest, tokensFrom_comment hcomment hrest, Nat.add_right_comm,
      ih]
  | token kind text rest htakes ih =>
    rw [tokensFrom_of_takes htakes, tokensFrom_of_takes htakes, Nat.add_right_comm, ih]
    rfl

end Lexer

namespace Reader

/-! ### States -/

/-- The dot of a list further on. -/
def DotState.shift (k : Nat) : DotState → DotState
  | absent => .absent
  | waiting span => .waiting (span.shift k)
  | filled tail => .filled (tail.shift k)

/-- The open construct further on. -/
def Frame.shift (k : Nat) : Frame → Frame
  | list start items dot => .list (start + k) (items.map (Node.shift k)) (dot.shift k)
  | mark m span => .mark m (span.shift k)

variable (k : Nat) (before : List Node)

/-- The state further on, behind forms that were read before, the last one first. -/
def State.shift (st : State) : State :=
  ⟨st.stack.map (Frame.shift k), st.forms.map (Node.shift k) ++ before⟩

/-- How reading goes further on, behind forms that were read before. -/
def shiftResult : Except ReadError State → Except ReadError State
  | .ok st => .ok (st.shift k before)
  | .error e => .error (e.shift k)

/-! ### One token -/

/-- An atom is made of the text of its token, so only its place is moved. -/
theorem atom_shift (t : Token) : atom (t.shift k) =
    match atom t with
    | .ok n => .ok (n.shift k)
    | .error e => .error (e.shift k) := by
  obtain ⟨kind, text, span⟩ := t
  cases kind with
  | number =>
    simp only [atom, Token.shift]
    cases Number.ofLiteral? text <;> rfl
  | string =>
    simp only [atom, Token.shift]
    rcases Text.Quoted.decode (text.toList.drop 1).dropLast with fault | s
    · cases fault <;> rfl
    · rfl
  | regex =>
    simp only [atom, Token.shift]
    cases RegexLiteral.make (String.ofList (splitRegex text.toList).1)
      (String.ofList (splitRegex text.toList).2) <;> rfl
  | _ => rfl

theorem push_shift (forms : List Node) (n : Node) (stack : List Frame) :
    push (forms.map (Node.shift k) ++ before) (n.shift k) (stack.map (Frame.shift k)) =
      shiftResult k before (push forms n stack) := by
  induction stack generalizing n with
  | nil => rfl
  | cons f rest ih =>
    rcases f with ⟨start, items, dot⟩ | ⟨m, span⟩
    · rcases dot with - | dotSpan | tail
      · rfl
      · rfl
      · show Except.error (ReadError.misplacedDot (n.shift k).span) = _
        rw [Node.span_shift]
        rfl
    · show push _ (.tagged m.name (span.shift k) (n.shift k)) _ = _
      rw [← Node.shift_tagged]
      exact ih _

theorem dot_shift (st : State) (span : Span) :
    dot (st.shift k before) (span.shift k) = shiftResult k before (dot st span) := by
  obtain ⟨stack, forms⟩ := st
  match stack with
  | [] => rfl
  | .mark m s :: rest => rfl
  | .list start [] d :: rest => rfl
  | .list start (n :: items) d :: rest => cases d <;> rfl

theorem close_shift (st : State) (t : Token) :
    close (st.shift k before) (t.shift k) = shiftResult k before (close st t) := by
  obtain ⟨stack, forms⟩ := st
  rcases stack with - | ⟨⟨start, items, dot⟩ | ⟨m, span⟩, rest⟩
  · rfl
  · rcases dot with - | dotSpan | tail
    · show close ⟨.list (start + k) (items.map (Node.shift k)) .absent :: _, _⟩ _ = _
      rw [close_absent, close_absent, ← push_shift, Node.shift_ofList, ← List.map_reverse]
      rfl
    · rfl
    · show push _ (.listWithTail (items.map (Node.shift k)).reverse (tail.shift k) _) _ =
        shiftResult k before (push forms (.listWithTail items.reverse tail _) rest)
      rw [← push_shift, Node.shift_listWithTail, ← List.map_reverse]
      rfl
  · rfl

/-- A token that is moved does to a moved state what it did. -/
theorem step_shift (st : State) (t : Token) :
    step (st.shift k before) (t.shift k) = shiftResult k before (step st t) := by
  have hkind : (t.shift k).kind = t.kind := rfl
  unfold step
  rw [hkind]
  split
  · rfl
  · exact close_shift k before st t
  · exact dot_shift k before st t.span
  · rfl
  · rfl
  · rfl
  · rfl
  · rw [atom_shift]
    rcases atom t with e | n
    · rfl
    · exact push_shift k before st.forms n st.stack

/-! ### All tokens -/

/-- **Tokens that are moved are read as what they were, moved.** -/
theorem steps_shift (st : State) (ts : List Token) :
    steps (st.shift k before) (ts.map (Token.shift k)) = shiftResult k before (steps st ts) := by
  induction ts generalizing st with
  | nil => rfl
  | cons t ts ih =>
    rw [List.map_cons, steps, steps, step_shift]
    rcases step st t with e | st'
    · rfl
    · exact ih st'

/-- Tokens that are moved, read behind forms, give these forms and theirs. -/
theorem finish_shift (st : State) :
    finish (st.shift k before) = match finish st with
      | .ok forms => .ok (before.reverse ++ forms.map (Node.shift k))
      | .error e => .error (e.shift k) := by
  obtain ⟨stack, forms⟩ := st
  rcases stack with - | ⟨⟨start, items, dot⟩ | ⟨m, span⟩, rest⟩
  · show Except.ok ((forms.map (Node.shift k) ++ before).reverse) = _
    rw [List.reverse_append, ← List.map_reverse]
    rfl
  · rfl
  · rfl

/-- What tokens give where they are moved to. -/
theorem readTokens_shift (ts : List Token) : readTokens (ts.map (Token.shift k)) =
    match readTokens ts with
    | .ok forms => .ok (forms.map (Node.shift k))
    | .error e => .error (e.shift k) := by
  have hsteps : steps .initial (ts.map (Token.shift k)) = shiftResult k [] (steps .initial ts) :=
    steps_shift k [] .initial ts
  rw [readTokens, readTokens, hsteps]
  rcases steps .initial ts with e | st
  · rfl
  · exact finish_shift k [] st

end Reader

end MiniLisp
