import MiniLisp.Data.List

/-!
# The written form of data

A list is written between brackets, its elements separated by single spaces, and an end other than
the empty list after a dot. Procedures and macros have written forms too, though these cannot be
read back.

The text is built from left to right onto what is already written (`writeOnto`), which takes time in
proportion to its length; `writeOnto_eq` says that nothing already written matters to it.
-/

namespace MiniLisp.Node

/-- The written form of a node that is no pair. -/
def leafText : Node → String
  | atom a _ => a.text
  | pair .. => ""
  | closure _ none .. => "#<procedure>"
  | closure _ (some name) .. => "#<procedure:" ++ name ++ ">"
  | transformer _ name .. => "#<macro:" ++ name ++ ">"

mutual

/-- Writes a node after a text. -/
def writeOnto (written : String) : Node → String
  | pair _ a d _ => writeRestOnto (a.writeOnto (written ++ "(")) d
  | n => written ++ n.leafText

/-- Writes what follows the first element of a list, the closing bracket included. -/
def writeRestOnto (written : String) : Node → String
  | pair _ a d _ => writeRestOnto (a.writeOnto (written ++ " ")) d
  | atom .nil _ => written ++ ")"
  | n => written ++ " . " ++ n.leafText ++ ")"

end

/-- The written form of a node. -/
def text (n : Node) : String := n.writeOnto ""

/-- The node as text: a string as it is, and anything else in its written form. -/
def displayText : Node → String
  | atom (.string s) _ => s
  | n => n.text

/-- The written form of what follows the first element of a list. -/
def restText (n : Node) : String := n.writeRestOnto ""

theorem writeOnto_eq_and (n : Node) : ∀ written : String,
    n.writeOnto written = written ++ n.text ∧ n.writeRestOnto written = written ++ n.restText := by
  induction n with
  | atom a s =>
    intro written
    refine ⟨by simp [writeOnto, text], ?_⟩
    cases a <;> simp [writeRestOnto, restText, String.append_assoc]
  | pair l a d s iha ihd =>
    intro written
    constructor
    · rw [text, writeOnto, writeOnto, (iha _).1, (ihd _).2, (iha ("" ++ "(")).1,
        (ihd (_ ++ _)).2]
      simp [String.append_assoc]
    · rw [restText, writeRestOnto, writeRestOnto, (iha _).1, (ihd _).2, (iha ("" ++ " ")).1,
        (ihd (_ ++ _)).2]
      simp [String.append_assoc]
  | closure => intro written; simp [writeOnto, writeRestOnto, text, restText, String.append_assoc]
  | transformer =>
    intro written; simp [writeOnto, writeRestOnto, text, restText, String.append_assoc]

/-- What is already written stays, and does not change what is written after it. -/
theorem writeOnto_eq (n : Node) (written : String) :
    n.writeOnto written = written ++ n.text := (n.writeOnto_eq_and written).1

theorem writeRestOnto_eq (n : Node) (written : String) :
    n.writeRestOnto written = written ++ n.restText := (n.writeOnto_eq_and written).2

/-- A pair is written as its first part between the opening bracket and the rest. -/
theorem text_pair (l : Option Label) (a d : Node) (s : Span) :
    (Node.pair l a d s).text = "(" ++ a.text ++ d.restText := by
  rw [text, writeOnto, writeRestOnto_eq, writeOnto_eq]
  simp

theorem restText_pair (l : Option Label) (a d : Node) (s : Span) :
    (Node.pair l a d s).restText = " " ++ a.text ++ d.restText := by
  rw [restText, writeRestOnto, writeRestOnto_eq, writeOnto_eq]
  simp

@[simp] theorem restText_nil (s : Span) : (Node.atom .nil s).restText = ")" := by
  simp [restText, writeRestOnto]

end MiniLisp.Node
