import MiniLisp.Eval.SpecialForm
import MiniLisp.Scope.Store
import MiniLisp.Token.Lexer

/-!
# Completion

What may be typed next when the text in front of the cursor ends in a symbol: for each visible name,
and each name of a special form, that begins with the symbol, the rest of that name.
-/

namespace MiniLisp.Prompt

/-- The symbol that ends a text, if the text ends in one. -/
def symbolBefore? (text : String) : Option String :=
  match (tokenize text).getLast? with
  | some t =>
    if t.kind = .symbol ∧ t.span.stop = byteLength text.toList then some t.text else none
  | none => none

/-- The rest of a text that begins with a stem. -/
def dropStem? : List Char → List Char → Option (List Char)
  | [], text => some text
  | _ :: _, [] => none
  | c :: stem, d :: text => if c = d then dropStem? stem text else none

/-- A text is its stem and the rest. -/
theorem dropStem?_eq_some_iff {stem text rest : List Char} :
    dropStem? stem text = some rest ↔ text = stem ++ rest := by
  induction stem generalizing text with
  | nil => simp [dropStem?]
  | cons c stem ih =>
    cases text with
    | nil => simp [dropStem?]
    | cons d text =>
      rw [dropStem?]
      split
      · next h => simp [ih, h]
      · next h => simp [Ne.symm h]

/-- The rest of a name that begins with a stem. -/
def remainder? (stem name : String) : Option String :=
  (dropStem? stem.toList name.toList).map String.ofList

/-- A name is its stem and the rest. -/
theorem remainder?_eq_some_iff {stem name rest : String} :
    remainder? stem name = some rest ↔ name = stem ++ rest := by
  rw [remainder?, Option.map_eq_some_iff]
  constructor
  · rintro ⟨rs, h, rfl⟩
    have h := congrArg String.ofList (dropStem?_eq_some_iff.1 h)
    simpa using h
  · rintro rfl
    exact ⟨rest.toList, dropStem?_eq_some_iff.2 (by simp), by simp⟩

/-- The names that may be typed in a scope. -/
def typeable (st : Store) (scope : ScopeId) : List String :=
  st.identifiers scope ++ SpecialForm.names

/-- What may be typed at an offset, in order. Nothing that stands there already is replaced, so the
text to insert always starts at the cursor. -/
structure Completion where
  start : Nat
  candidates : List String
deriving DecidableEq

/-- The completion at an offset in a line. -/
def complete (st : Store) (scope : ScopeId) (line : String) (offset : Nat) : Completion where
  start := offset
  candidates := match symbolBefore? (String.ofList (splitBytes offset line.toList).1) with
    | some stem => Store.sorted ((typeable st scope).filterMap (remainder? stem))
    | none => []

end MiniLisp.Prompt
