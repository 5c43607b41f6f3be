import MiniLisp.Proofs.Number.Numeral
import MiniLisp.Proofs.Token.Extent

/-!
# The longest match

Tokens are given by patterns (`patterns`), several of which may match at one place. The one that
matches most wins, and among those that match equally much the one with the highest priority
(`Pattern.Wins`); no two kinds of token win at one place (`Pattern.Wins.unique`). The lexer does not
try them one by one: on a character that begins an atom it takes the longest run of symbol
characters and looks at the run as a whole.

The two agree (`Pattern.exists_wins_atom`) because of how the patterns lie in each other. Whatever a
pattern of atoms matches is matched by the pattern of symbols (`Pattern.fits_atom`), so it is made
of symbol characters and no longer than the run, and the pattern of symbols matches the run itself.
Another pattern can win only by its priority, when it matches the whole run too, and all of these
others that do are of the kind that the run has as an atom.

Hence an atom is a whole run, and its text alone decides on its kind (`atom_covers_run`).
-/

namespace MiniLisp

namespace Lexer

/-! ### Patterns -/

/-- A pattern for the tokens of a kind. -/
structure Pattern where
  kind : TokenKind
  /-- What decides between patterns that match the same text. -/
  priority : Nat
  /-- The texts that are matched. -/
  Fits : List Char → Prop

namespace Pattern

/-- The pattern of a single text, which weighs two for each character. -/
def literal (kind : TokenKind) (text : List Char) : Pattern :=
  ⟨kind, 2 * text.length, fun cs ↦ cs = text⟩

def dot : Pattern := ⟨.dot, 3, fun cs ↦ cs = ['.']⟩

/-- Symbols that do not begin with a slash. -/
def symbol : Pattern := ⟨.symbol, 2, fun cs ↦
  ∃ c run, cs = c :: run ∧ isAtomStart c = true ∧ ∀ d ∈ run, isAtomChar d = true⟩

def number : Pattern := ⟨.number, 3, fun cs ↦ ∃ n : Numeral, n.text = cs⟩

def string : Pattern := ⟨.string, 4, fun cs ↦
  ∃ body, cs = '"' :: (body ++ ['"']) ∧ StringBody body⟩

def openString : Pattern := ⟨.openString, 2, fun cs ↦
  ∃ body last, cs = '"' :: (body ++ last) ∧ StringBody body ∧ (last = [] ∨ last = ['\\'])⟩

end Pattern

/-- The patterns of atoms. -/
def atomPatterns : List Pattern :=
  [.dot, .symbol, .number, .literal .boolean ['#', 't'], .literal .boolean ['#', 'f']]

/-- The patterns of all other tokens. A slash goes on as a regular expression or a symbol. -/
def delimiterPatterns : List Pattern := [
  .literal .leftParen ['('], .literal .rightParen [')'], .literal .quote ['\''],
  .literal .quasiquote ['\x60'], .literal .unquote [','], .literal .splice [',', '@'],
  .literal .symbol ['/'], .string, .openString]

/-- The patterns of tokens. -/
def patterns : List Pattern := atomPatterns ++ delimiterPatterns

namespace Pattern

/-- The pattern matches a piece of text at its beginning, no pattern matches more, and those of
other kinds that match the same have a lower priority. -/
structure Wins (p : Pattern) (text piece : List Char) : Prop where
  fits : p.Fits piece
  begins : piece <+: text
  longest : ∀ q ∈ patterns, ∀ other, q.Fits other → other <+: text → other.length ≤ piece.length
  first : ∀ q ∈ patterns, q.Fits piece → q.kind ≠ p.kind → q.priority < p.priority

/-- Only one piece of a text and one kind can win. -/
theorem Wins.unique {p q : Pattern} {text piece other : List Char} (hp : p ∈ patterns)
    (hq : q ∈ patterns) (h : p.Wins text piece) (h' : q.Wins text other) :
    piece = other ∧ p.kind = q.kind := by
  have hle : piece.length ≤ other.length := h'.longest p hp piece h.fits h.begins
  have hge : other.length ≤ piece.length := h.longest q hq other h'.fits h'.begins
  obtain rfl : piece = other :=
    (List.prefix_of_prefix_length_le h.begins h'.begins hle).eq_of_length_le hge
  refine ⟨rfl, ?_⟩
  by_contra hkind
  have hlt := h.first q hq h'.fits (Ne.symm hkind)
  have hgt := h'.first p hp h.fits hkind
  omega

/-! ### What matches at an atom -/

/-- What matches another pattern than those of atoms begins with a delimiter. -/
theorem exists_delimiter {p : Pattern} (hp : p ∈ delimiterPatterns) {piece : List Char}
    (h : p.Fits piece) : ∃ d ∈ delimiters, ∃ cs, piece = d :: cs := by
  have hliteral (text : List Char) (kind : TokenKind) (h : (literal kind text).Fits piece)
      (htext : ∃ d ∈ delimiters, ∃ cs, text = d :: cs) :
      ∃ d ∈ delimiters, ∃ cs, piece = d :: cs := by
    obtain rfl : piece = text := h
    exact htext
  simp only [delimiterPatterns, List.mem_cons, List.not_mem_nil, or_false] at hp
  rcases hp with rfl | rfl | rfl | rfl | rfl | rfl | rfl | rfl | rfl
  case inr.inr.inr.inr.inr.inr.inr.inl =>
    obtain ⟨body, rfl, -⟩ := h
    exact ⟨'"', by decide, _, rfl⟩
  case inr.inr.inr.inr.inr.inr.inr.inr =>
    obtain ⟨body, last, rfl, -⟩ := h
    exact ⟨'"', by decide, _, rfl⟩
  all_goals exact hliteral _ _ h ⟨_, by decide, _, rfl⟩

/-- The characters of a numeral may all begin an atom. -/
theorem isAtomStart_of_mem_text {n : Numeral} {c : Char} (h : c ∈ n.text) :
    isAtomStart c = true := by
  have hdigits (ds : Numeral.Digits) (hc : c ∈ ds.chars) : isAtomStart c = true :=
    isAtomStart_of_isDigit (ds.isDigit c hc)
  have hsign (s : Numeral.Sign) (hc : c ∈ s.text) : isAtomStart c = true := by
    cases s with
    | absent => exact absurd hc List.not_mem_nil
    | plus => exact List.mem_singleton.mp hc ▸ by decide
    | minus => exact List.mem_singleton.mp hc ▸ by decide
  obtain ⟨sign, whole, fraction, exponent⟩ := n
  rcases List.mem_append.mp h with h | h
  · exact hsign sign h
  rcases List.mem_append.mp h with h | h
  · exact hdigits whole h
  rcases List.mem_append.mp h with h | h
  · cases fraction with
    | none => exact absurd h List.not_mem_nil
    | some ds =>
      rcases List.mem_cons.mp h with rfl | h
      · decide
      · exact hdigits ds h
  · cases exponent with
    | none => exact absurd h List.not_mem_nil
    | some e =>
      rcases List.mem_cons.mp h with rfl | h
      · cases e.isCapital <;> decide
      · rcases List.mem_append.mp h with h | h
        · exact hsign e.sign h
        · exact hdigits e.digits h

theorem symbol_fits_text (n : Numeral) : symbol.Fits n.text := by
  have hne : n.text ≠ [] := by
    intro h
    obtain ⟨c, cs, hcs, -⟩ := n.whole.exists_cons
    rw [Numeral.text, hcs] at h
    simp at h
  obtain ⟨c, run, htext⟩ := List.exists_cons_of_ne_nil hne
  have hall : ∀ d ∈ c :: run, isAtomStart d = true :=
    fun d hd ↦ isAtomStart_of_mem_text (htext ▸ hd)
  exact ⟨c, run, htext, hall c List.mem_cons_self,
    fun d hd ↦ isAtomChar_of_isAtomStart (hall d (List.mem_cons_of_mem c hd))⟩

/-- **What matches a pattern of atoms is matched by the pattern of symbols.** If it is another
pattern that matches, then its kind is the one that the text has as an atom, and it has a higher
priority. -/
theorem fits_atom {p : Pattern} (hp : p ∈ atomPatterns) {piece : List Char} (h : p.Fits piece) :
    symbol.Fits piece ∧ (p = symbol ∨ p.kind = atomKind piece ∧ symbol.priority < p.priority) := by
  simp only [atomPatterns, List.mem_cons, List.not_mem_nil, or_false] at hp
  rcases hp with rfl | rfl | rfl | rfl | rfl
  · obtain rfl : piece = ['.'] := h
    exact ⟨⟨'.', [], rfl, by decide, nofun⟩, .inr ⟨rfl, by decide⟩⟩
  · exact ⟨h, .inl rfl⟩
  · obtain ⟨n, rfl⟩ := h
    exact ⟨symbol_fits_text n, .inr ⟨(atomKind_of_isNumeral n.isNumeral_text).symm, by decide⟩⟩
  · obtain rfl : piece = ['#', 't'] := h
    exact ⟨⟨'#', ['t'], rfl, by decide, List.forall_mem_singleton.mpr rfl⟩, .inr ⟨rfl, by decide⟩⟩
  · obtain rfl : piece = ['#', 'f'] := h
    exact ⟨⟨'#', ['f'], rfl, by decide, List.forall_mem_singleton.mpr rfl⟩, .inr ⟨rfl, by decide⟩⟩

/-- The kind that a text has as an atom is that of a pattern that matches it. -/
theorem exists_fits_atom {piece : List Char} (h : symbol.Fits piece) :
    ∃ p ∈ atomPatterns, p.kind = atomKind piece ∧ p.Fits piece := by
  unfold atomKind
  split
  · next hdot => exact ⟨dot, by simp [atomPatterns], rfl, hdot⟩
  split
  · next hboolean =>
    rcases hboolean with htrue | hfalse
    · exact ⟨literal .boolean ['#', 't'], by simp [atomPatterns], rfl, htrue⟩
    · exact ⟨literal .boolean ['#', 'f'], by simp [atomPatterns], rfl, hfalse⟩
  split
  · next hnumeral => exact ⟨number, by simp [atomPatterns], rfl, isNumeral_iff.mp hnumeral⟩
  · exact ⟨symbol, by simp [atomPatterns], rfl, h⟩

/-- A piece that the pattern of symbols matches lies in the run that the text begins with. -/
theorem length_le_of_symbol {piece rest : List Char} {c : Char} (h : symbol.Fits piece)
    (hbegins : piece <+: c :: rest) :
    piece.length ≤ (c :: rest.takeWhile isAtomChar).length := by
  obtain ⟨d, run, rfl, -, hrun⟩ := h
  obtain ⟨more, hmore⟩ := (List.cons_prefix_cons.mp hbegins).2
  rw [← hmore, List.takeWhile_append_of_pos hrun]
  simp

/-- **A run of symbol characters is the longest match**, and the winner is of the kind that the run
has as an atom. -/
theorem exists_wins_atom {c : Char} (hc : isAtomStart c = true) (rest : List Char) :
    ∃ p ∈ patterns, p.kind = atomKind (c :: rest.takeWhile isAtomChar) ∧
      p.Wins (c :: rest) (c :: rest.takeWhile isAtomChar) := by
  have hsymbol : symbol.Fits (c :: rest.takeWhile isAtomChar) :=
    ⟨c, _, rfl, hc, List.all_eq_true.mp List.all_takeWhile⟩
  -- No other patterns than those of atoms match here.
  have hatom {q : Pattern} (hq : q ∈ patterns) {piece : List Char} (hfits : q.Fits piece)
      (hbegins : piece <+: c :: rest) : q ∈ atomPatterns := by
    refine (List.mem_append.mp hq).resolve_right fun hother ↦ ?_
    obtain ⟨d, hd, cs, rfl⟩ := exists_delimiter hother hfits
    exact ne_of_isAtomStart hc hd (List.cons_prefix_cons.mp hbegins).1.symm
  have hbegins : c :: rest.takeWhile isAtomChar <+: c :: rest :=
    List.cons_prefix_cons.mpr ⟨rfl, List.takeWhile_prefix _⟩
  obtain ⟨p, hp, hkind, hfits⟩ := exists_fits_atom hsymbol
  refine ⟨p, List.mem_append_left _ hp, hkind, hfits, hbegins, ?_, ?_⟩
  · intro q hq other hother hprefix
    exact length_le_of_symbol (fits_atom (hatom hq hother hprefix) hother).1 hprefix
  · intro q hq hother hne
    -- Of two patterns of different kinds that match the run, one is that of symbols.
    obtain ⟨-, rfl | ⟨hq, -⟩⟩ := fits_atom (hatom hq hother hbegins) hother
    · obtain ⟨-, rfl | ⟨-, hlt⟩⟩ := fits_atom hp hfits
      · exact absurd rfl hne
      · exact hlt
    · exact absurd (hq.trans hkind.symm) hne

end Pattern

/-! ### The kind of an atom -/

/-- A token that begins with a character that begins an atom is the whole run, with the kind that
the run has as an atom. -/
theorem Takes.atom {kind : TokenKind} {text after rest : List Char} {c : Char}
    (h : Takes kind text after) (hc : isAtomStart c = true) (hcut : c :: rest = text ++ after) :
    text = c :: rest.takeWhile isAtomChar ∧ kind = atomKind text := by
  rcases text with - | ⟨d, cs⟩
  · exact h.elim
  · obtain rfl : c = d := (List.cons.inj hcut).1
    obtain rfl : rest = cs ++ after := (List.cons.inj hcut).2
    obtain ⟨hkind, hlength⟩ := Prod.mk.inj ((munch_of_isAtomStart hc _).symm.trans h.2.2)
    have hcs : (cs ++ after).takeWhile isAtomChar = cs := by
      rw [← take_length_takeWhile, hlength, List.take_left]
    rw [hcs] at hkind ⊢
    exact ⟨rfl, hkind.symm⟩

theorem atomKind_eq_dot_iff {cs : List Char} : atomKind cs = .dot ↔ cs = ['.'] := by
  unfold atomKind
  split
  · simp [*]
  · repeat' split
    all_goals simp [*]

theorem atomKind_eq_boolean_iff {cs : List Char} :
    atomKind cs = .boolean ↔ cs = ['#', 't'] ∨ cs = ['#', 'f'] := by
  unfold atomKind
  split
  · next hdot => simp [hdot]
  · repeat' split
    all_goals simp_all

theorem atomKind_eq_number_iff {cs : List Char} :
    atomKind cs = .number ↔ ∃ n : Numeral, n.text = cs := by
  rw [← isNumeral_iff]
  refine ⟨fun h ↦ ?_, atomKind_of_isNumeral⟩
  unfold atomKind at h
  split at h
  · cases h
  split at h
  · cases h
  split at h
  · assumption
  · cases h

/-- A text that is no other atom is a symbol. -/
theorem atomKind_eq_symbol_iff {cs : List Char} : atomKind cs = .symbol ↔
    (∀ n : Numeral, n.text ≠ cs) ∧ cs ≠ ['#', 't'] ∧ cs ≠ ['#', 'f'] ∧ cs ≠ ['.'] := by
  have hmem := atomKind_mem cs
  have hcases : atomKind cs = .symbol ↔
      ¬ atomKind cs = .number ∧ ¬ atomKind cs = .boolean ∧ ¬ atomKind cs = .dot := by
    simp only [atomKinds, List.mem_cons, List.not_mem_nil, or_false] at hmem
    rcases hmem with h | h | h | h <;> simp [h]
  rw [hcases, atomKind_eq_number_iff, atomKind_eq_boolean_iff, atomKind_eq_dot_iff, not_exists,
    not_or, and_assoc]

/-- The text of a number is that of a numeral. -/
theorem Takes.exists_numeral {text rest : List Char} (h : Takes .number text rest) :
    ∃ n : Numeral, n.text = text := by
  rcases text with - | ⟨c, cs⟩
  · exact h.elim
  · have hstart : isAtomStart c = true := by
      simpa [markKinds, stringKinds, atomKinds] using munch_eq_cases h.2.2
    exact atomKind_eq_number_iff.mp (h.atom hstart rfl).2.symm

end Lexer

open Lexer

/-- **An atom is a whole run of symbol characters, and its text alone decides on its kind.** Where a
token begins with a character that begins an atom, it covers the longest run of symbol characters
from there on, and no other token has a part of the run. It is a number, a boolean or a dot if the
run has this form, and a symbol otherwise. This is also what the longest match of all patterns is,
the one with the highest priority among those that match the whole run. -/
theorem atom_covers_run {source : String} {before rest : List Char} {c : Char}
    (hsource : source.toList = before ++ c :: rest) (hc : isAtomStart c = true)
    (hstart : ∃ t ∈ tokenize source, t.span.start = byteLength before) :
    ∃ t ∈ tokenize source, t.text.toList = c :: rest.takeWhile isAtomChar ∧
      t.span = ⟨byteLength before, byteLength before + byteLength t.text.toList⟩ ∧
      (∀ u ∈ tokenize source, u ≠ t →
        u.span.stop ≤ t.span.start ∨ t.span.stop ≤ u.span.start) ∧
      (t.kind = .number ↔ ∃ n : Numeral, n.text = t.text.toList) ∧
      (t.kind = .boolean ↔ t.text = "#t" ∨ t.text = "#f") ∧
      (t.kind = .dot ↔ t.text = ".") ∧
      (t.kind = .symbol ↔ (∀ n : Numeral, n.text ≠ t.text.toList) ∧
        t.text ≠ "#t" ∧ t.text ≠ "#f" ∧ t.text ≠ ".") ∧
      ∃ p ∈ patterns, p.kind = t.kind ∧ p.Wins (c :: rest) t.text.toList := by
  obtain ⟨t, ht, hstart⟩ := hstart
  obtain ⟨after, hcovers, htakes⟩ := exists_takes_of_mem_tokenize ht
  have hstop := hcovers.stop_eq
  rw [hsource] at hcovers
  have hcut : c :: rest = t.text.toList ++ after := hcovers.eq_append hstart
  obtain ⟨htext, hkind⟩ := htakes.atom hc hcut
  have htiling : Tiling (byteLength []) source.toList (tokenize source) := tiling_tokenize source
  have htoList (s : String) : t.text = s ↔ t.text.toList = s.toList := String.toList_inj.symm
  refine ⟨t, ht, htext, ?_, fun u hu hne ↦ htiling.disjoint hu ht hne, ?_⟩
  · rw [← hstart, ← hstop]
  · simp only [ne_eq, htoList]
    rw [hkind, atomKind_eq_number_iff, atomKind_eq_boolean_iff, atomKind_eq_dot_iff,
      atomKind_eq_symbol_iff, htext]
    exact ⟨Iff.rfl, Iff.rfl, Iff.rfl, Iff.rfl, Pattern.exists_wins_atom hc rest⟩

/-- A numeral at the beginning of a longer run is no number. -/
theorem atom_covers_run_symbol :
    "(-1e5x)".toList = ['('] ++ '-' :: ['1', 'e', '5', 'x', ')'] ∧ isAtomStart '-' = true ∧
      (∃ t ∈ tokenize "(-1e5x)", t.span.start = byteLength ['(']) ∧
      ∃ t ∈ tokenize "(-1e5x)", t.text = "-1e5x" ∧ t.span = ⟨1, 6⟩ ∧ t.kind = .symbol := by
  have hsource : "(-1e5x)".toList = ['('] ++ '-' :: ['1', 'e', '5', 'x', ')'] := by decide
  have hstart : ∃ t ∈ tokenize "(-1e5x)", t.span.start = byteLength ['('] := by
    have htokens : tokenize "(-1e5x)" = [⟨.leftParen, "(", ⟨0, 1⟩⟩, ⟨.symbol, "-1e5x", ⟨1, 6⟩⟩,
        ⟨.rightParen, ")", ⟨6, 7⟩⟩] := by decide +kernel
    rw [htokens]
    exact ⟨_, List.mem_cons_of_mem _ List.mem_cons_self, rfl⟩
  obtain ⟨t, ht, hrun, hspan, -, -, -, -, hsymbol, -⟩ :=
    atom_covers_run hsource (by decide) hstart
  have htext : t.text = "-1e5x" := String.toList_inj.mp (hrun.trans (by decide))
  rw [htext] at hspan hsymbol
  refine ⟨hsource, by decide, hstart, t, ht, htext, hspan, hsymbol.mpr ⟨fun n hn ↦ ?_, ?_⟩⟩
  · have hnumeral : isNumeral "-1e5x".toList = true := isNumeral_iff.mpr ⟨n, hn⟩
    exact absurd hnumeral (by decide)
  · decide

end MiniLisp
