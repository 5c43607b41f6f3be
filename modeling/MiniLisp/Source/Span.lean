/-!
# Spans of source text

Positions in a source text are byte offsets into its UTF-8 form. A text is handled as a list of
characters, so the number of bytes of a list of characters (`byteLength`) is what ties the two
views together: it adds up over concatenation (`byteLength_append`), which is why the end of a
piece of text is the start of the next.

A span is not required to run forwards. The reader only makes spans that do, but spans of values
made while a program runs combine ends of unrelated pieces of text.
-/

namespace MiniLisp

/-- The number of bytes of the UTF-8 form of a list of characters. -/
def byteLength : List Char → Nat
  | [] => 0
  | c :: cs => c.utf8Size + byteLength cs

@[simp] theorem byteLength_nil : byteLength [] = 0 := rfl

@[simp] theorem byteLength_cons (c : Char) (cs : List Char) :
    byteLength (c :: cs) = c.utf8Size + byteLength cs := rfl

/-- Bytes add up over concatenation. -/
@[simp] theorem byteLength_append (cs ds : List Char) :
    byteLength (cs ++ ds) = byteLength cs + byteLength ds := by
  induction cs with
  | nil => simp
  | cons c cs ih => simp [ih, Nat.add_assoc]

/-- Every character takes a byte at least, so only the empty text has no bytes. -/
theorem byteLength_eq_zero_iff {cs : List Char} : byteLength cs = 0 ↔ cs = [] := by
  cases cs with
  | nil => simp
  | cons c cs =>
    have := c.utf8Size_pos
    simp only [byteLength_cons, reduceCtorEq, iff_false]
    omega

/-- Cuts a text after a number of bytes. A character that the cut would fall into goes to the second
part. -/
def splitBytes (n : Nat) : List Char → List Char × List Char
  | [] => ([], [])
  | c :: cs =>
    if c.utf8Size ≤ n then
      let (front, back) := splitBytes (n - c.utf8Size) cs
      (c :: front, back)
    else ([], c :: cs)

/-- A cut loses nothing. -/
theorem splitBytes_append (n : Nat) (cs : List Char) :
    (splitBytes n cs).1 ++ (splitBytes n cs).2 = cs := by
  induction cs generalizing n with
  | nil => rfl
  | cons c cs ih =>
    rw [splitBytes]
    split
    · exact congrArg (c :: ·) (ih _)
    · rfl

/-- A cut between characters takes exactly those in front of it. -/
theorem splitBytes_byteLength (front back : List Char) :
    splitBytes (byteLength front) (front ++ back) = (front, back) := by
  induction front with
  | nil =>
    cases back with
    | nil => rfl
    | cons c cs =>
      have := c.utf8Size_pos
      simp only [byteLength_nil, List.nil_append, splitBytes]
      rw [if_neg (by omega)]
  | cons c cs ih =>
    simp only [byteLength_cons, List.cons_append, splitBytes]
    rw [if_pos (by omega), Nat.add_sub_cancel_left, ih]

/-- A range of byte offsets into a source text. The offset `stop` is not in it. -/
structure Span where
  /-- The offset of the first byte. -/
  start : Nat
  /-- The offset after the last byte. -/
  stop : Nat
deriving DecidableEq, Inhabited

namespace Span

/-- The span of a value that was read from no text. -/
def nowhere : Span := ⟨0, 0⟩

/-- The empty span at an offset. -/
def at_ (offset : Nat) : Span := ⟨offset, offset⟩

/-- The least span that covers both. -/
def merge (a b : Span) : Span := ⟨min a.start b.start, max a.stop b.stop⟩

/-- The written form: both ends, with two points between them. -/
def render (s : Span) : String := toString s.start ++ ".." ++ toString s.stop

/-- The span runs forwards and ends within the first `length` bytes. -/
def Within (s : Span) (length : Nat) : Prop := s.start ≤ s.stop ∧ s.stop ≤ length

/-- The span moved to the right by a number of bytes. -/
def shift (s : Span) (offset : Nat) : Span := ⟨s.start + offset, s.stop + offset⟩

end Span

end MiniLisp
