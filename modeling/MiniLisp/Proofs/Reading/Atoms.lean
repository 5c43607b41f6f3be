import MiniLisp.Proofs.Number.Exact
import MiniLisp.Proofs.Reading.RoundTrip
import MiniLisp.Proofs.Token.ClosingSlash
import MiniLisp.Proofs.Token.Longest

/-!
# From tokens to atoms

The lexer decides what a token is, and the reader then takes its text apart again by rules of its
own: it cuts off the quotes of a string and undoes the escapes, it cuts a regular expression at its
last slash, and it reads numbers as literals. Here these rules are shown to fit what the lexer lets
through.

A slash begins a regular expression or a symbol, and all that is said of it later agrees with that
(`slash_form_decided`): its text alone tells which of the two it is, and cutting it at the last
slash gives the body and the flags that the lexer went by.

The conversion of a token of a text fails in few ways (`atom_of_token`). Every number token has a
number, an exact one unless there is a point or an exponent. The body of a string that is closed
does not end in a backslash that is left over. All cuts are made between characters within the
text. And the reader never asks for the atom of a token that is none.
-/

namespace MiniLisp

open Lexer (Takes StringBody FirstClosingSlash ClosingSlash OpensRegex)

/-! ### Slices -/

/-- The piece of a text that a span covers. There is none if the span does not run forwards between
places between characters of the text. -/
def Span.slice? (s : Span) (text : List Char) : Option (List Char) :=
  let (front, _) := splitBytes s.stop text
  let (before, piece) := splitBytes s.start front
  if byteLength front = s.stop ∧ byteLength before = s.start then some piece else none

theorem Span.slice?_eq_some_iff {s : Span} {text piece : List Char} :
    s.slice? text = some piece ↔ ∃ after, s.Covers text piece after := by
  constructor
  · intro h
    have hfront := splitBytes_append s.stop text
    have hbefore := splitBytes_append s.start (splitBytes s.stop text).1
    unfold slice? at h
    dsimp only at h
    split at h
    · next hlengths =>
      obtain ⟨hstop, hstart⟩ := hlengths
      obtain rfl := Option.some.inj h
      refine ⟨(splitBytes s.stop text).2, _, ?_, Span.mk.injEq .. |>.mpr ⟨hstart.symm, ?_⟩⟩
      · rw [← List.append_assoc, hbefore, hfront]
      · rw [← byteLength_append, hbefore, hstop]
    · cases h
  · rintro ⟨after, before, rfl, rfl⟩
    have hfront : splitBytes (byteLength before + byteLength piece) (before ++ (piece ++ after)) =
        (before ++ piece, after) := by
      rw [← byteLength_append, ← List.append_assoc, splitBytes_byteLength]
    unfold slice?
    dsimp only
    rw [hfront, splitBytes_byteLength]
    simp

/-! ### Strings -/

/-- The text between the quotes of a string, as a slice. -/
def stringBody? (text : List Char) : Option (List Char) :=
  Span.slice? ⟨1, byteLength text - 1⟩ text

theorem stringBody?_quoted (body : List Char) :
    stringBody? ('"' :: (body ++ ['"'])) = some body := by
  refine Span.slice?_eq_some_iff.mpr ⟨['"'], ['"'], rfl, ?_⟩
  have hquote : '"'.utf8Size = 1 := rfl
  simp only [byteLength_cons, byteLength_append, byteLength_nil, hquote, Span.mk.injEq, true_and]
  omega

/-- No backslash is left over at the end of a body. -/
theorem decodeOnto_ne_dangling {body : List Char} (h : StringBody body) (read : List Char) :
    Text.Quoted.decodeOnto read body ≠ .error .dangling := by
  induction h generalizing read with
  | nil =>
    intro hdecode
    cases hdecode
  | plain hquote hbackslash h ih =>
    rw [Text.Quoted.decodeOnto_plain _ _ hbackslash]
    exact ih _
  | escape hc h ih =>
    rw [Text.Quoted.decodeOnto]
    split
    · exact ih _
    · intro hdecode
      cases hdecode

/-! ### Regular expressions -/

/-- The byte offset of the last slash of a text. -/
def lastSlash? : List Char → Option Nat
  | [] => none
  | c :: cs => match lastSlash? cs with
    | some offset => some (c.utf8Size + offset)
    | none => if c = '/' then some 0 else none

/-- The source and the flags of a regular expression, as slices up to its last slash and behind
it. -/
def regexParts? (text : List Char) : Option (List Char × List Char) :=
  match lastSlash? text with
  | some offset =>
    if 0 < offset then do
      let source ← Span.slice? ⟨1, offset⟩ text
      let flags ← Span.slice? ⟨offset + 1, byteLength text⟩ text
      some (source, flags)
    else some (text, [])
  | none => some (text, [])

theorem lastSlash?_of_not_mem {flags : List Char} (h : '/' ∉ flags) : lastSlash? flags = none := by
  induction flags with
  | nil => rfl
  | cons c flags ih =>
    obtain ⟨hc, hflags⟩ := not_or.mp (fun hmem ↦ h (List.mem_cons.mpr hmem))
    rw [lastSlash?, ih hflags]
    exact if_neg (Ne.symm hc)

theorem lastSlash?_append {flags : List Char} (h : '/' ∉ flags) (front : List Char) :
    lastSlash? (front ++ '/' :: flags) = some (byteLength front) := by
  induction front with
  | nil =>
    rw [List.nil_append, lastSlash?, lastSlash?_of_not_mem h]
    rfl
  | cons c front ih =>
    rw [List.cons_append, lastSlash?, ih]
    rfl

/-- A regular expression is cut between characters, and into its source and its flags. -/
theorem regexParts?_eq {body flags : List Char} (hflags : '/' ∉ flags) :
    regexParts? ('/' :: (body ++ '/' :: flags)) = some (body, flags) := by
  have hslash : '/'.utf8Size = 1 := rfl
  have hlast : lastSlash? ('/' :: (body ++ '/' :: flags)) = some (1 + byteLength body) :=
    lastSlash?_append hflags ('/' :: body)
  have hsource : Span.slice? ⟨1, 1 + byteLength body⟩ ('/' :: (body ++ '/' :: flags)) =
      some body := Span.slice?_eq_some_iff.mpr ⟨'/' :: flags, ['/'], rfl, rfl⟩
  have hrest : Span.slice? ⟨1 + byteLength body + 1, byteLength ('/' :: (body ++ '/' :: flags))⟩
      ('/' :: (body ++ '/' :: flags)) = some flags := by
    refine Span.slice?_eq_some_iff.mpr ⟨[], '/' :: (body ++ ['/']), by simp, ?_⟩
    simp only [byteLength_cons, byteLength_append, byteLength_nil, hslash, Span.mk.injEq]
    omega
  unfold regexParts?
  rw [hlast]
  dsimp only
  rw [if_pos (by omega), hsource, hrest]
  rfl

/-- **What begins with a slash is decided once.** A token that begins with a slash is a regular
expression exactly if the next character may open one and an unescaped slash follows on the line,
and its text alone tells so too. Then it goes up to the first such slash and the letters behind it,
and cutting its text at the last slash gives the body between the two slashes, which is not empty and
in which all slashes are escaped, and these letters. Otherwise it is a symbol, the longest run of the
characters that may stand in one. -/
theorem slash_form_decided {source : String} {t : Token} (ht : t ∈ tokenize source)
    (hslash : t.text.toList.head? = some '/') :
    ∃ before rest, source.toList = before ++ '/' :: rest ∧
      t.span = ⟨byteLength before, byteLength before + byteLength t.text.toList⟩ ∧
      (t.kind = .regex ↔
        OpensRegex rest ∧ ∃ body after, ClosingSlash [] rest body after) ∧
      (t.kind = .regex ↔ Lexer.isRegexText t.text.toList = true) ∧
      (t.kind = .regex → ∃ body after, FirstClosingSlash [] rest body after ∧ body ≠ [] ∧
        t.text.toList = '/' :: (body ++ '/' :: after.takeWhile Char.isAlpha) ∧
        Reader.splitRegex t.text.toList = (body, after.takeWhile Char.isAlpha)) ∧
      (t.kind ≠ .regex → t.kind = .symbol ∧
        t.text.toList = '/' :: rest.takeWhile Lexer.isSlashSymbolChar) := by
  obtain ⟨after, hcovers, htakes⟩ := exists_takes_of_mem_tokenize ht
  obtain ⟨cs, htext⟩ : ∃ cs, t.text.toList = '/' :: cs := by
    obtain ⟨cs, hcs⟩ := List.head?_eq_some_iff.mp hslash
    exact ⟨cs, hcs⟩
  obtain ⟨before, hsource, hspan⟩ := hcovers
  have hregex := htakes.regex_iff
  rw [htext] at hsource htakes
  refine ⟨before, cs ++ after, hsource, hspan, ?_⟩
  obtain ⟨hkind, hopens, body, more, hfirst, rfl⟩ | ⟨hkind, hrun, hnot⟩ := htakes.slash_cases
  · have hbody : body ≠ [] := by
      rintro rfl
      obtain ⟨c, hc, -, hslash, -⟩ := hopens
      exact hslash (Option.some.inj hc).symm
    refine ⟨⟨fun _ ↦ ⟨hopens, body, more, hfirst.toClosingSlash⟩, fun _ ↦ hkind⟩, hregex, fun _ ↦ ?_,
      fun hother ↦ absurd hkind hother⟩
    refine ⟨body, more, hfirst, hbody, htext, ?_⟩
    rw [htext, splitRegex_eq (Lexer.slash_not_mem_flags more)]
  · have hother : t.kind ≠ .regex := by
      rw [hkind]
      exact nofun
    refine ⟨⟨fun h ↦ absurd h hother, fun h ↦ absurd h hnot⟩, hregex, fun h ↦ absurd h hother,
      fun _ ↦ ⟨hkind, ?_⟩⟩
    rw [htext, ← hrun]

/-- An escaped slash belongs to the body, and the letters behind the closing one are flags. -/
theorem slash_form_decided_escaped :
    (∃ t ∈ tokenize "(f /\\//i)", t.text.toList.head? = some '/') ∧
      ∃ body flags, body ≠ [] ∧ "/\\//i".toList = '/' :: (body ++ '/' :: flags) ∧
        Reader.splitRegex "/\\//i".toList = (body, flags) := by
  have hmem : (⟨.regex, "/\\//i", ⟨3, 8⟩⟩ : Token) ∈ tokenize "(f /\\//i)" := by
    have htokens : tokenize "(f /\\//i)" = [⟨.leftParen, "(", ⟨0, 1⟩⟩, ⟨.symbol, "f", ⟨1, 2⟩⟩,
        ⟨.regex, "/\\//i", ⟨3, 8⟩⟩, ⟨.rightParen, ")", ⟨8, 9⟩⟩] := by decide +kernel
    rw [htokens]
    decide
  have hslash : "/\\//i".toList.head? = some '/' := by decide
  obtain ⟨before, rest, -, -, -, -, hregex, -⟩ := slash_form_decided hmem hslash
  obtain ⟨body, after, -, hbody, htext, hsplit⟩ := hregex rfl
  exact ⟨⟨_, hmem, hslash⟩, body, _, hbody, htext, hsplit⟩

/-! ### Conversion of a token -/

namespace Reader

theorem atom_of_number {t : Token} (hkind : t.kind = .number) {n : Number}
    (hn : Number.ofLiteral? t.text = some n) : atom t = .ok (.number n t.span) := by
  rw [atom, hkind]
  simp only [hn]

/-- Only a number can have a malformed number. -/
theorem of_atom_invalidNumber {t : Token} {text : String} {span : Span}
    (h : atom t = .error (.lexical (.invalidNumber text) span)) :
    t.kind = .number ∧ Number.ofLiteral? t.text = none := by
  unfold atom at h
  split at h
  case h_1 hkind =>
    split at h
    · cases h
    · next hnone => exact ⟨hkind, hnone⟩
  case h_3 => split at h <;> cases h
  case h_4 =>
    dsimp only at h
    split at h <;> cases h
  all_goals cases h

/-- A string is only unterminated if a backslash is left over at its end. -/
theorem of_atom_unterminated {t : Token} {span : Span} (hkind : t.kind = .string)
    (h : atom t = .error (.lexical .unterminatedString span)) :
    Text.Quoted.decode (t.text.toList.drop 1).dropLast = .error .dangling := by
  rw [atom, hkind] at h
  dsimp only at h
  split at h
  · cases h
  · cases h
  · assumption

/-- Only a token that is no atom is met with where an atom is wanted. -/
theorem of_atom_unexpected {t found : Token}
    (h : atom t = .error (.unexpectedToken found .atom)) : t.kind ∈
      [.leftParen, .rightParen, .dot, .quote, .quasiquote, .unquote, .splice] := by
  unfold atom at h
  split at h
  case h_1 => split at h <;> cases h
  case h_3 => split at h <;> cases h
  case h_4 =>
    dsimp only at h
    split at h <;> cases h
  case h_8 => cases hkind : t.kind <;> simp_all
  all_goals cases h

/-! ### Tokens that are no atoms -/

/-- A form that has no place in its list is a misplaced dot. -/
theorem of_push_error {forms : List Node} {n : Node} {stack : List Frame} {e : ReadError}
    (h : push forms n stack = .error e) : ∃ span, e = .misplacedDot span := by
  induction stack generalizing n with
  | nil => cases h
  | cons f rest ih =>
    cases f with
    | mark m span => exact ih h
    | list start items dot =>
      cases dot with
      | absent => cases h
      | waiting span => cases h
      | filled tail => exact ⟨_, (Except.error.inj h).symm⟩

theorem push_ne_unexpected (forms : List Node) (n : Node) (stack : List Frame) (found : Token) :
    push forms n stack ≠ .error (.unexpectedToken found .atom) := by
  intro h
  obtain ⟨span, hspan⟩ := of_push_error h
  cases hspan

/-- The reader never asks for the atom of a token that is none. -/
theorem step_ne_unexpected (st : State) (t found : Token) :
    step st t ≠ .error (.unexpectedToken found .atom) := by
  intro h
  unfold step at h
  split at h
  case h_2 =>
    unfold close at h
    split at h
    · dsimp only at h
      split at h
      · exact push_ne_unexpected _ _ _ _ h
      · exact push_ne_unexpected _ _ _ _ h
      · cases h
    · cases h
  case h_3 =>
    unfold dot at h
    split at h <;> cases h
  case h_8 =>
    cases hatom : atom t with
    | ok n =>
      rw [hatom] at h
      exact push_ne_unexpected _ _ _ _ h
    | error e =>
      rw [hatom] at h
      obtain rfl : e = .unexpectedToken found .atom := Except.error.inj h
      have hkind := of_atom_unexpected hatom
      simp_all
  all_goals cases h

theorem steps_ne_unexpected (st : State) (ts : List Token) (found : Token) :
    steps st ts ≠ .error (.unexpectedToken found .atom) := by
  induction ts generalizing st with
  | nil => exact nofun
  | cons t ts ih =>
    intro h
    rw [steps] at h
    cases hstep : step st t with
    | ok next =>
      rw [hstep] at h
      exact ih next h
    | error e =>
      rw [hstep] at h
      obtain rfl : e = .unexpectedToken found .atom := Except.error.inj h
      exact step_ne_unexpected st t found hstep

end Reader

/-- No list of tokens is refused because an atom was wanted. -/
theorem readTokens_ne_unexpected (ts : List Token) (found : Token) :
    readTokens ts ≠ .error (.unexpectedToken found .atom) := by
  intro h
  unfold readTokens at h
  split at h
  · unfold Reader.finish at h
    split at h <;> cases h
  · next e hsteps =>
    obtain rfl : e = .unexpectedToken found .atom := Except.error.inj h
    exact Reader.steps_ne_unexpected _ _ _ hsteps

/-- **The conversion of a token fails in no way that the lexer has ruled out.** No token of a text is
a malformed number, and no closed string is unterminated. The quotes of a string are cut off, and a
regular expression is cut at its last slash, between characters of its text. A number without a
point and an exponent mark becomes the integer of its sign and its digits in the narrowest form, and
any other number a float. And no text is refused because an atom was wanted. -/
theorem atom_of_token (source : String) :
    (∀ t ∈ tokenize source,
      (∀ text span, Reader.atom t ≠ .error (.lexical (.invalidNumber text) span)) ∧
      (t.kind = .string → (∀ span, Reader.atom t ≠ .error (.lexical .unterminatedString span)) ∧
        stringBody? t.text.toList = some (t.text.toList.drop 1).dropLast) ∧
      (t.kind = .regex → regexParts? t.text.toList = some (Reader.splitRegex t.text.toList)) ∧
      (t.kind = .number →
        ((∀ c ∈ t.text.toList, c ≠ '.' ∧ c ≠ 'e' ∧ c ≠ 'E') →
          ∃ (sign : Numeral.Sign) (digits : Numeral.Digits) (n : Number),
            t.text.toList = sign.text ++ digits.chars ∧
            n.Exactly (Number.signed sign.isNegative digits.value) ∧
            Reader.atom t = .ok (.number n t.span)) ∧
        (¬ (∀ c ∈ t.text.toList, c ≠ '.' ∧ c ≠ 'e' ∧ c ≠ 'E') →
          ∃ x, Reader.atom t = .ok (.number (.float x) t.span)))) ∧
    ∀ found, read source ≠ .error (.unexpectedToken found .atom) := by
  refine ⟨fun t ht ↦ ?_, fun found ↦ readTokens_ne_unexpected _ found⟩
  obtain ⟨after, -, htakes⟩ := exists_takes_of_mem_tokenize ht
  refine ⟨fun text span h ↦ ?_, fun hkind ↦ ?_, fun hkind ↦ ?_, fun hkind ↦ ?_⟩
  · obtain ⟨hkind, hnone⟩ := Reader.of_atom_invalidNumber h
    obtain ⟨n, hn⟩ := Takes.exists_numeral (hkind ▸ htakes)
    have hnumber := n.ofLiteral?_text
    rw [hn, String.ofList_toList, hnone] at hnumber
    cases hnumber
  · obtain ⟨body, htext, hbody⟩ := Takes.string_body (hkind ▸ htakes)
    have hcut : (t.text.toList.drop 1).dropLast = body := by
      rw [htext, List.drop_one, List.tail_cons, List.dropLast_concat]
    refine ⟨fun span h ↦ decodeOnto_ne_dangling hbody [] ?_, ?_⟩
    · rw [← hcut]
      exact Reader.of_atom_unterminated hkind h
    · rw [hcut, htext, stringBody?_quoted]
  · obtain ⟨body, flags, htext, hflags⟩ := Takes.exists_slashes (hkind ▸ htakes)
    rw [htext, regexParts?_eq hflags, splitRegex_eq hflags]
  · obtain ⟨n, hn⟩ := Takes.exists_numeral (hkind ▸ htakes)
    have hatom : Reader.atom t = .ok (.number n.number t.span) := by
      refine Reader.atom_of_number hkind ?_
      rw [← n.ofLiteral?_text, hn, String.ofList_toList]
    rw [← hn, ← n.isInteger_iff, hatom]
    constructor
    · intro hinteger
      have hnumber : n.number = .ofInt n.value := if_pos hinteger
      exact ⟨n.sign, n.whole, n.number, hinteger.text_eq, hnumber ▸ Number.exactly_ofInt n.value, rfl⟩
    · intro hother
      exact ⟨_, congrArg _ (congrArg (Node.number · t.span) (if_neg hother))⟩

/-- A plus sign is part of the token, and not of its number. -/
theorem atom_of_token_signed : (⟨.number, "+12", ⟨1, 4⟩⟩ : Token) ∈ tokenize "(+12)" ∧
    Reader.atom ⟨.number, "+12", ⟨1, 4⟩⟩ = .ok (.number (.ofInt 12) ⟨1, 4⟩) := by
  have hmem : (⟨.number, "+12", ⟨1, 4⟩⟩ : Token) ∈ tokenize "(+12)" := by
    have htokens : tokenize "(+12)" = [⟨.leftParen, "(", ⟨0, 1⟩⟩, ⟨.number, "+12", ⟨1, 4⟩⟩,
        ⟨.rightParen, ")", ⟨4, 5⟩⟩] := by decide +kernel
    rw [htokens]
    decide
  have hchars : "+12".toList = ['+', '1', '2'] := by decide
  have hplain : ∀ c ∈ "+12".toList, c ≠ '.' ∧ c ≠ 'e' ∧ c ≠ 'E' := by
    rw [hchars]
    simp
  obtain ⟨hexact, -⟩ := ((atom_of_token "(+12)").1 _ hmem).2.2.2 rfl
  obtain ⟨sign, digits, n, htext, hn, hatom⟩ := hexact hplain
  refine ⟨hmem, ?_⟩
  replace htext : sign.text ++ digits.chars = ['+', '1', '2'] := htext.symm.trans hchars
  cases sign with
  | plus =>
    have hdigits : digits.chars = ['1', '2'] := (List.cons.inj htext).2
    have hvalue : Number.signed Numeral.Sign.plus.isNegative digits.value = 12 := by
      rw [Numeral.Digits.value, hdigits]
      decide
    rw [hatom, Number.exactly_iff.mp hn, hvalue]
  | minus => exact absurd (List.cons.inj htext).1 (by decide)
  | absent =>
    obtain ⟨c, cs, hdigits, hc⟩ := digits.exists_cons
    have hplus : c = '+' := (List.cons.inj (hdigits.symm.trans htext)).1
    exact absurd hplus (Number.ne_of_isDigit hc rfl)

end MiniLisp
