import MiniLisp.Proofs.Token.Boundary
import MiniLisp.Text.Quoted

/-!
# Strings by their parts

Behind its opening quote a string has a row of plain characters and escapes (`StringBody`), and then
an end (`StringEnd`): the quote that closes it, the end of the text, or a backslash that has nothing
to escape because the text ends there or a line break follows. The extent of a string is that of its
two parts (`stringExtent_iff`).

So a string that is closed is a body between two quotes (`Takes.string_body`), and one that is open
goes to the end of the text or up to a line break (`Takes.openString_end`). What is written between
the quotes of a string literal is a body, so the literal is one token (`takes_string`).
-/

namespace MiniLisp.Lexer

/-- A row of plain characters and of escapes, which are a backslash and one character behind it. A
quote or a backslash is not plain, and a line break is not escaped. -/
inductive StringBody : List Char → Prop
  | nil : StringBody []
  | plain {c : Char} {cs : List Char} (hquote : c ≠ '"') (hbackslash : c ≠ '\\')
      (h : StringBody cs) : StringBody (c :: cs)
  | escape {c : Char} {cs : List Char} (hc : c ≠ '\n') (h : StringBody cs) :
      StringBody ('\\' :: c :: cs)

theorem StringBody.append {cs ds : List Char} (hcs : StringBody cs) (hds : StringBody ds) :
    StringBody (cs ++ ds) := by
  induction hcs with
  | nil => exact hds
  | plain hquote hbackslash h ih => exact .plain hquote hbackslash ih
  | escape hc h ih => exact .escape hc ih

/-- Nothing is next, or a line break. -/
def AtNewline (cs : List Char) : Prop := ∀ c ∈ cs.head?, c = '\n'

theorem atNewline_cons (cs : List Char) : AtNewline ('\n' :: cs) := by
  rintro c ⟨⟩
  rfl

/-- What ends a string behind its body, in front of what does not belong to it. The flag says
whether the string is closed. -/
inductive StringEnd : List Char → List Char → Bool → Prop
  | quote (rest : List Char) : StringEnd ['"'] rest true
  | finish : StringEnd [] [] false
  | backslash {rest : List Char} (h : AtNewline rest) : StringEnd ['\\'] rest false

/-! ### The extent of a string -/

theorem stringExtent_plain (n : Nat) {c : Char} (hquote : c ≠ '"') (hbackslash : c ≠ '\\')
    (rest : List Char) : stringExtent n (c :: rest) = stringExtent (n + 1) rest := by
  rw [stringExtent]
  · exact hquote
  · exact fun h _ ↦ hbackslash h
  · exact fun _ _ h _ ↦ hbackslash h

theorem stringExtent_escape (n : Nat) {c : Char} (hc : c ≠ '\n') (rest : List Char) :
    stringExtent n ('\\' :: c :: rest) = stringExtent (n + 2) rest := by
  rw [stringExtent, if_neg hc]

/-- A string goes on behind a body. -/
theorem StringBody.stringExtent_append {body : List Char} (h : StringBody body) (n : Nat)
    (rest : List Char) : stringExtent n (body ++ rest) = stringExtent (n + body.length) rest := by
  induction h generalizing n with
  | nil => rfl
  | plain hquote hbackslash h ih =>
    rw [List.cons_append, stringExtent_plain n hquote hbackslash, ih, List.length_cons,
      Nat.add_assoc, Nat.add_comm 1]
  | escape hc h ih =>
    rw [List.cons_append, List.cons_append, stringExtent_escape n hc, ih, List.length_cons,
      List.length_cons, Nat.add_assoc, Nat.add_comm 2]

/-- And it does not go on behind an end. -/
theorem StringEnd.stringExtent_append {last rest : List Char} {closed : Bool}
    (h : StringEnd last rest closed) (n : Nat) :
    stringExtent n (last ++ rest) = (closed, n + last.length) := by
  cases h with
  | quote => rfl
  | finish => rfl
  | backslash hrest =>
    rcases rest with - | ⟨c, rest⟩
    · rfl
    · obtain rfl : c = '\n' := hrest c rfl
      rfl

/-- Any text that a string is read from begins with a body and an end. -/
theorem exists_stringParts (cs : List Char) : ∃ body last rest closed,
    cs = body ++ (last ++ rest) ∧ StringBody body ∧ StringEnd last rest closed := by
  induction (0 : Nat), cs using stringExtent.induct with
  | case1 => exact ⟨[], [], [], false, rfl, .nil, .finish⟩
  | case2 n rest => exact ⟨[], ['"'], rest, true, rfl, .nil, .quote rest⟩
  | case3 => exact ⟨[], ['\\'], [], false, rfl, .nil, .backslash nofun⟩
  | case4 n rest => exact ⟨[], ['\\'], _, false, rfl, .nil, .backslash (atNewline_cons rest)⟩
  | case5 n c cs hc ih =>
    obtain ⟨body, last, rest, closed, rfl, hbody, hlast⟩ := ih
    exact ⟨'\\' :: c :: body, last, rest, closed, rfl, .escape hc hbody, hlast⟩
  | case6 n c cs hquote hend hescape ih =>
    have hbackslash : c ≠ '\\' := by
      rintro rfl
      rcases cs with - | ⟨d, cs⟩
      · exact hend rfl rfl
      · exact hescape d cs rfl rfl
    obtain ⟨body, last, rest, closed, rfl, hbody, hlast⟩ := ih
    exact ⟨c :: body, last, rest, closed, rfl, .plain hquote hbackslash hbody, hlast⟩

/-- The extent of a string is that of its parts. -/
theorem stringExtent_parts {body last rest : List Char} {closed : Bool} (hbody : StringBody body)
    (hlast : StringEnd last rest closed) (n : Nat) :
    stringExtent n (body ++ (last ++ rest)) = (closed, n + (body ++ last).length) := by
  rw [hbody.stringExtent_append, hlast.stringExtent_append, List.length_append, Nat.add_assoc]

theorem exists_parts_of_stringExtent {n stop : Nat} {cs : List Char} {closed : Bool}
    (h : stringExtent n cs = (closed, stop)) : ∃ body last rest,
      cs = body ++ (last ++ rest) ∧ StringBody body ∧ StringEnd last rest closed ∧
        stop = n + (body ++ last).length := by
  obtain ⟨body, last, rest, closed', rfl, hbody, hlast⟩ := exists_stringParts cs
  rw [stringExtent_parts hbody hlast] at h
  obtain ⟨rfl, rfl⟩ := Prod.mk.inj h
  exact ⟨body, last, rest, rfl, hbody, hlast, rfl⟩

/-- **A string is a body and an end.** -/
theorem stringExtent_iff {n : Nat} {cs rest : List Char} {closed : Bool} :
    stringExtent n (cs ++ rest) = (closed, n + cs.length) ↔
      ∃ body last, cs = body ++ last ∧ StringBody body ∧ StringEnd last rest closed := by
  constructor
  · intro h
    obtain ⟨body, last, rest', hcut, hbody, hlast, hlength⟩ := exists_parts_of_stringExtent h
    rw [← List.append_assoc] at hcut
    obtain ⟨rfl, rfl⟩ := List.append_inj hcut (Nat.add_left_cancel hlength)
    exact ⟨body, last, rfl, hbody, hlast⟩
  · rintro ⟨body, last, rfl, hbody, hlast⟩
    rw [List.append_assoc, stringExtent_parts hbody hlast]

theorem stringExtent_le (n : Nat) (cs : List Char) : (stringExtent n cs).2 ≤ n + cs.length := by
  obtain ⟨body, last, rest, hcut, -, -, hstop⟩ := @exists_parts_of_stringExtent n _ cs _ rfl
  rw [hstop, hcut, ← List.append_assoc]
  exact Nat.add_le_add_left (List.prefix_append _ rest).length_le n

/-- What follows its closing quote does not matter to a string. -/
theorem stringExtent_append {n stop : Nat} {cs : List Char}
    (h : stringExtent n cs = (true, stop)) (more : List Char) :
    stringExtent n (cs ++ more) = (true, stop) := by
  obtain ⟨body, last, rest, rfl, hbody, hlast, rfl⟩ := exists_parts_of_stringExtent h
  cases hlast with
  | quote =>
    rw [List.append_assoc, List.append_assoc]
    exact stringExtent_parts hbody (.quote _) n

/-- A string that is closed within a piece of text is closed without what follows the piece. -/
theorem stringExtent_of_append {n stop : Nat} {cs more : List Char}
    (h : stringExtent n (cs ++ more) = (true, stop)) (hstop : stop ≤ n + cs.length) :
    stringExtent n cs = (true, stop) := by
  obtain ⟨body, last, rest, hcut, hbody, hlast, rfl⟩ := exists_parts_of_stringExtent h
  cases hlast with
  | quote =>
    -- The quote is within the piece, so the piece is the string and the beginning of what follows.
    rw [← List.append_assoc] at hcut
    obtain ⟨rest, rfl⟩ : body ++ ['"'] <+: cs :=
      List.prefix_of_prefix_length_le ⟨_, hcut.symm⟩ ⟨more, rfl⟩ (Nat.add_le_add_iff_left.mp hstop)
    rw [List.append_assoc]
    exact stringExtent_parts hbody (.quote rest) n

/-! ### Strings as tokens -/

/-- The kind of a string. -/
def stringKind (closed : Bool) : TokenKind := if closed then .string else .openString

theorem stringKind_injective {closed closed' : Bool} (h : stringKind closed = stringKind closed') :
    closed = closed' := by
  cases closed <;> cases closed' <;> first | rfl | cases h

/-- Only a quote begins a string, whether it is closed or open. -/
theorem start_of_munch_string (closed : Bool) {c : Char} {rest : List Char} {n : Nat}
    (h : munch c rest = (stringKind closed, n)) : c = '"' := by
  cases closed <;> simpa [stringKind, markKinds, stringKinds, atomKinds] using munch_eq_cases h

/-- **A string as a token** is a quote, a body and an end. -/
theorem takes_string_iff (closed : Bool) {text rest : List Char} :
    Takes (stringKind closed) text rest ↔
      ∃ body last, text = '"' :: (body ++ last) ∧ StringBody body ∧ StringEnd last rest closed := by
  have hmunch (cs : List Char) : munch '"' (cs ++ rest) = (stringKind closed, cs.length) ↔
      ∃ body last, cs = body ++ last ∧ StringBody body ∧ StringEnd last rest closed := by
    rw [← stringExtent_iff (n := 0), Nat.zero_add, munch_quote]
    rcases stringExtent 0 (cs ++ rest) with ⟨closed', stop⟩
    simp only [Prod.mk.injEq]
    exact and_congr_left fun _ ↦ ⟨stringKind_injective, congrArg stringKind⟩
  constructor
  · intro h
    rcases text with - | ⟨c, cs⟩
    · exact h.elim
    · obtain rfl := start_of_munch_string closed h.2.2
      obtain ⟨body, last, rfl, hparts⟩ := (hmunch cs).mp h.2.2
      exact ⟨body, last, rfl, hparts⟩
  · rintro ⟨body, last, rfl, hparts⟩
    exact ⟨rfl, by decide, (hmunch _).mpr ⟨body, last, rfl, hparts⟩⟩

/-- A string that is closed is a body between two quotes. -/
theorem Takes.string_body {text rest : List Char} (h : Takes .string text rest) :
    ∃ body, text = '"' :: (body ++ ['"']) ∧ StringBody body := by
  obtain ⟨body, last, rfl, hbody, hlast⟩ := (takes_string_iff true).mp h
  cases hlast with
  | quote => exact ⟨body, rfl, hbody⟩

/-- An open string is all that is left of the text, or it stands in front of a line break and is the
same token in front of any other. -/
theorem Takes.openString_end {text rest : List Char} (h : Takes .openString text rest) :
    rest = [] ∨ ∀ more, AtNewline more → Takes .openString text more := by
  obtain ⟨body, last, rfl, hbody, hlast⟩ := (takes_string_iff false).mp h
  cases hlast with
  | finish => exact .inl rfl
  | backslash =>
    exact .inr fun more hmore ↦
      (takes_string_iff false).mpr ⟨body, _, rfl, hbody, .backslash hmore⟩

/-! ### String literals -/

theorem stringBody_encodeChar (c : Char) : StringBody (Text.Quoted.encodeChar c) := by
  rw [Text.Quoted.encodeChar]
  split
  · exact .escape (by decide) .nil
  split
  · exact .escape (by decide) .nil
  split
  · exact .escape (by decide) .nil
  split
  · exact .escape (by decide) .nil
  split
  · exact .escape (by decide) .nil
  · next hquote hbackslash _ _ _ => exact .plain hquote hbackslash .nil

theorem stringBody_encode (cs : List Char) : StringBody (Text.Quoted.encode cs) := by
  induction cs with
  | nil => exact .nil
  | cons c cs ih => exact (stringBody_encodeChar c).append ih

/-- A string literal is one token, whatever follows it. -/
theorem takes_string (cs rest : List Char) :
    Takes .string ('"' :: (Text.Quoted.encode cs ++ ['"'])) rest :=
  (takes_string_iff true).mpr ⟨_, _, rfl, stringBody_encode cs, .quote rest⟩

end MiniLisp.Lexer
