import MiniLisp.Proofs.Reading.RoundTrip
import MiniLisp.Proofs.Token.ClosingSlash

/-!
# Escaped slashes in regular expressions

The source of a regular expression is read in pieces: a backslash and the character behind it are
an escape, and any other character stands for itself (`RegexLiteral.Piece`). The pattern is made
without regard to that. Wherever a backslash and a slash stand in a row, a slash is put in their
place (`RegexLiteral.unescapeSlashes`).

In a source that holds an escaped backslash and then a slash on its own, this would take a backslash
from an escape that has nothing to do with the slash. No token has such a source
(`regex_unescaped`). The lexer goes past a slash only behind an odd number of backslashes, and so it
is the second character of an escape wherever the source is read in pieces
(`RegexLiteral.exists_pieces`).
-/

namespace MiniLisp

open Lexer (escapes escapes_concat)

namespace RegexLiteral

/-! ### Pieces of a source -/

/-- A piece of the source of a regular expression: a character that stands for itself, or an escape,
which is a backslash and the character behind it. -/
inductive Piece where
  | plain (c : Char) (h : c ≠ '\\')
  | escape (c : Char)

namespace Piece

/-- A piece as it stands in the source. -/
def written : Piece → List Char
  | plain c _ => [c]
  | escape c => ['\\', c]

/-- A piece with an escaped slash replaced by the slash. -/
def unescaped : Piece → List Char
  | plain c _ => [c]
  | escape c => if c = '/' then ['/'] else ['\\', c]

/-- The piece is no slash that stands for itself. -/
def IsGuarded : Piece → Prop
  | plain c _ => c ≠ '/'
  | escape _ => True

end Piece

/-- The source that is made of pieces. -/
def sourceOf (pieces : List Piece) : List Char := pieces.flatMap Piece.written

@[simp] theorem sourceOf_nil : sourceOf [] = [] := rfl

@[simp] theorem sourceOf_plain (c : Char) (h : c ≠ '\\') (pieces : List Piece) :
    sourceOf (.plain c h :: pieces) = c :: sourceOf pieces := rfl

@[simp] theorem sourceOf_escape (c : Char) (pieces : List Piece) :
    sourceOf (.escape c :: pieces) = '\\' :: c :: sourceOf pieces := rfl

theorem sourceOf_append (pieces more : List Piece) :
    sourceOf (pieces ++ more) = sourceOf pieces ++ sourceOf more :=
  List.flatMap_append

/-- A source is read in one way only. -/
theorem sourceOf_injective {pieces other : List Piece} (h : sourceOf pieces = sourceOf other) :
    pieces = other := by
  induction pieces generalizing other with
  | nil =>
    rcases other with - | ⟨_ | _, other⟩
    · rfl
    · cases h
    · cases h
  | cons piece pieces ih =>
    rcases piece with ⟨c, hc⟩ | c
    · rcases other with - | ⟨⟨d, hd⟩ | d, other⟩
      · cases h
      · obtain ⟨rfl, hrest⟩ := List.cons.inj h
        rw [ih hrest]
      · exact absurd (List.cons.inj h).1 hc
    · rcases other with - | ⟨⟨d, hd⟩ | d, other⟩
      · cases h
      · exact absurd (List.cons.inj h).1.symm hd
      · obtain ⟨rfl, hrest⟩ := List.cons.inj (List.cons.inj h).2
        rw [ih hrest]

/-! ### Pieces and escaped characters -/

theorem escapes_plain (before : List Char) {c : Char} (hc : c ≠ '\\') :
    escapes (before ++ [c]) = false := by
  rw [escapes_concat, beq_false_of_ne hc, Bool.false_and]

section

variable {before : List Char} (hbefore : escapes before = false)
include hbefore

theorem escapes_backslash : escapes (before ++ ['\\']) = true := by
  rw [escapes_concat, hbefore]
  rfl

theorem escapes_escape (c : Char) : escapes (before ++ ['\\', c]) = false := by
  have hcut : before ++ ['\\', c] = before ++ ['\\'] ++ [c] := by simp
  rw [hcut, escapes_concat, escapes_backslash hbefore, Bool.not_true, Bool.and_false]

/-- What stands behind whole pieces is not escaped. -/
theorem escapes_sourceOf (pieces : List Piece) : escapes (before ++ sourceOf pieces) = false := by
  induction pieces generalizing before with
  | nil => rwa [sourceOf_nil, List.append_nil]
  | cons piece pieces ih =>
    rcases piece with ⟨c, hc⟩ | c
    · have hrest := ih (escapes_plain before hc)
      rwa [List.append_assoc] at hrest
    · have hrest := ih (escapes_escape hbefore c)
      rwa [List.append_assoc] at hrest

/-- **A text can be read in pieces** if no backslash is left over at its end. -/
theorem exists_pieces {text : List Char} (hend : escapes (before ++ text) = false) :
    ∃ pieces, text = sourceOf pieces := by
  induction hlen : text.length using Nat.strongRecOn generalizing before text with
  | ind n ih =>
    subst hlen
    rcases text with - | ⟨c, text⟩
    · exact ⟨[], rfl⟩
    by_cases hc : c = '\\'
    · subst hc
      rcases text with - | ⟨c, text⟩
      · rw [escapes_backslash hbefore] at hend
        cases hend
      · have hrest : escapes (before ++ ['\\', c] ++ text) = false := by
          rwa [List.append_assoc]
        have hlt : text.length < ('\\' :: c :: text).length :=
          Nat.lt_succ_of_lt (Nat.lt_succ_self _)
        obtain ⟨pieces, rfl⟩ := ih _ hlt (escapes_escape hbefore c) hrest rfl
        exact ⟨.escape c :: pieces, rfl⟩
    · have hrest : escapes (before ++ [c] ++ text) = false := by rwa [List.append_assoc]
      have hlt : text.length < (c :: text).length := Nat.lt_succ_self _
      obtain ⟨pieces, rfl⟩ := ih _ hlt (escapes_plain before hc) hrest rfl
      exact ⟨.plain c hc :: pieces, rfl⟩

end

/-- If every slash is escaped then none of the pieces is a slash that stands for itself. -/
theorem isGuarded_of_mem {pieces : List Piece} (h : ∀ front back,
    sourceOf pieces = front ++ '/' :: back → escapes front = true) {piece : Piece}
    (hpiece : piece ∈ pieces) : piece.IsGuarded := by
  obtain ⟨front, back, rfl⟩ := List.append_of_mem hpiece
  rcases piece with ⟨c, hc⟩ | c
  · rintro rfl
    have hescaped := h (sourceOf front) (sourceOf back) (sourceOf_append front _)
    have hnot : escapes ([] ++ sourceOf front) = false := escapes_sourceOf rfl front
    rw [List.nil_append, hescaped] at hnot
    cases hnot
  · trivial

/-! ### Replacing -/

theorem unescapeSlashes_of_ne {c : Char} {rest : List Char}
    (hne : ¬ (c = '\\' ∧ rest.head? = some '/')) :
    unescapeSlashes (c :: rest) = c :: unescapeSlashes rest := by
  rw [unescapeSlashes]
  rintro more rfl rfl
  exact hne ⟨rfl, rfl⟩

section

variable {pieces : List Piece} (h : ∀ piece ∈ pieces, piece.IsGuarded)
include h

theorem head?_sourceOf_ne : (sourceOf pieces).head? ≠ some '/' := by
  rcases pieces with - | ⟨⟨c, hc⟩ | c, pieces⟩
  · exact nofun
  · have hguarded : c ≠ '/' := (List.forall_mem_cons.mp h).1
    simpa using hguarded
  · simp

/-- Where a backslash and a slash stand in a row, they are an escape. -/
theorem exists_escape_of_cut {front back : List Char}
    (hcut : sourceOf pieces = front ++ '\\' :: '/' :: back) :
    ∃ before after, pieces = before ++ .escape '/' :: after ∧ front = sourceOf before ∧
      back = sourceOf after := by
  induction pieces generalizing front with
  | nil => simp at hcut
  | cons piece pieces ih =>
    obtain ⟨-, hrest⟩ := List.forall_mem_cons.mp h
    rcases piece with ⟨c, hc⟩ | c
    · rcases front with - | ⟨d, front⟩
      · exact absurd (List.cons.inj hcut).1 hc
      · obtain ⟨rfl, htail⟩ := List.cons.inj hcut
        obtain ⟨before, after, rfl, rfl, rfl⟩ := ih hrest htail
        exact ⟨.plain c hc :: before, after, rfl, rfl, rfl⟩
    · rcases front with - | ⟨d, _ | ⟨e, front⟩⟩
      · obtain ⟨rfl, rfl⟩ := List.cons.inj (List.cons.inj hcut).2
        exact ⟨[], pieces, rfl, rfl, rfl⟩
      · -- The backslash is the second one of an escape, and a slash on its own is next.
        have hslash : sourceOf pieces = '/' :: back := (List.cons.inj (List.cons.inj hcut).2).2
        exact absurd (congrArg List.head? hslash) (head?_sourceOf_ne hrest)
      · obtain ⟨rfl, htail⟩ := List.cons.inj (List.cons.inj hcut).2
        obtain ⟨before, after, rfl, rfl, rfl⟩ := ih hrest htail
        exact ⟨.escape c :: before, after, rfl, by rw [(List.cons.inj hcut).1.symm]; rfl, rfl⟩

/-- Replacing goes by pieces, though it does not look at them. -/
theorem unescapeSlashes_sourceOf :
    unescapeSlashes (sourceOf pieces) = pieces.flatMap Piece.unescaped := by
  induction pieces with
  | nil => rfl
  | cons piece pieces ih =>
    obtain ⟨-, hrest⟩ := List.forall_mem_cons.mp h
    rw [List.flatMap_cons, ← ih hrest]
    rcases piece with ⟨c, hc⟩ | c
    · exact unescapeSlashes_of_ne fun hboth ↦ hc hboth.1
    · by_cases hc : c = '/'
      · subst hc
        rfl
      · -- If the escaped character is a backslash itself, no slash comes behind it.
        have hfirst : unescapeSlashes ('\\' :: c :: sourceOf pieces) =
            '\\' :: unescapeSlashes (c :: sourceOf pieces) :=
          unescapeSlashes_of_ne fun hboth ↦ hc (Option.some.inj hboth.2)
        have hsecond : unescapeSlashes (c :: sourceOf pieces) =
            c :: unescapeSlashes (sourceOf pieces) :=
          unescapeSlashes_of_ne fun hboth ↦ head?_sourceOf_ne hrest hboth.2
        rw [sourceOf_escape, hfirst, hsecond, Piece.unescaped, if_neg hc]
        rfl

end

end RegexLiteral

open RegexLiteral

/-- **Replacing escaped slashes respects escapes.** The source of a regular expression in a text is
read in pieces, in one way only, and no slash in it stands for itself. So a backslash and a slash in
a row are always one escape, and replacing them wherever they stand changes these pieces and leaves
all others as they are, an escaped backslash among them. That is the text of which the pattern is
made. -/
theorem regex_unescaped {source : String} {t : Token} (ht : t ∈ tokenize source)
    (hkind : t.kind = .regex) :
    ∃ pieces flags, Reader.splitRegex t.text.toList = (sourceOf pieces, flags) ∧
      (∀ other, sourceOf other = sourceOf pieces → other = pieces) ∧
      (∀ piece ∈ pieces, piece.IsGuarded) ∧
      (∀ front back, sourceOf pieces = front ++ '\\' :: '/' :: back →
        ∃ before after, pieces = before ++ .escape '/' :: after ∧ front = sourceOf before ∧
          back = sourceOf after) ∧
      unescapeSlashes (sourceOf pieces) = pieces.flatMap Piece.unescaped ∧
      (RegexLiteral.mk (String.ofList (sourceOf pieces)) (String.ofList flags)).pattern =
        Regex.parse (settings (String.ofList flags)) (pieces.flatMap Piece.unescaped) := by
  obtain ⟨rest, -, htakes⟩ := exists_takes_of_mem_tokenize ht
  rw [hkind] at htakes
  obtain ⟨cs, htext⟩ : ∃ cs, t.text.toList = '/' :: cs := by
    obtain ⟨body, flags, htext, -⟩ := htakes.exists_slashes
    exact ⟨_, htext⟩
  rw [htext] at htakes ⊢
  obtain ⟨-, -, body, after, hfirst, rfl⟩ | ⟨hsymbol, -⟩ := htakes.slash_cases
  · obtain ⟨pieces, rfl⟩ := exists_pieces rfl hfirst.unescaped
    have hguarded : ∀ piece ∈ pieces, piece.IsGuarded :=
      fun piece hpiece ↦ isGuarded_of_mem hfirst.escaped hpiece
    have hunescaped := unescapeSlashes_sourceOf hguarded
    refine ⟨pieces, after.takeWhile Char.isAlpha, splitRegex_eq (Lexer.slash_not_mem_flags after),
      fun other hother ↦ sourceOf_injective hother, hguarded,
      fun front back hcut ↦ exists_escape_of_cut hguarded hcut, hunescaped, ?_⟩
    rw [← hunescaped, pattern, String.toList_ofList]
  · cases hsymbol

/-- An escaped backslash and an escaped slash in a row: of the three backslashes it is the last one
that goes. -/
theorem regex_unescaped_backslash :
    (∃ t ∈ tokenize "(f /\\\\\\//)", t.kind = .regex) ∧
      Reader.splitRegex "/\\\\\\//".toList = (sourceOf [.escape '\\', .escape '/'], []) ∧
      unescapeSlashes (sourceOf [.escape '\\', .escape '/']) = ['\\', '\\', '/'] := by
  have hmem : (⟨.regex, "/\\\\\\//", ⟨3, 9⟩⟩ : Token) ∈ tokenize "(f /\\\\\\//)" := by
    have htokens : tokenize "(f /\\\\\\//)" = [⟨.leftParen, "(", ⟨0, 1⟩⟩, ⟨.symbol, "f", ⟨1, 2⟩⟩,
        ⟨.regex, "/\\\\\\//", ⟨3, 9⟩⟩, ⟨.rightParen, ")", ⟨9, 10⟩⟩] := by decide +kernel
    rw [htokens]
    decide
  have hparts : Reader.splitRegex "/\\\\\\//".toList =
      (sourceOf [.escape '\\', .escape '/'], []) := by decide
  obtain ⟨pieces, flags, hsplit, hunique, -, -, hunescaped, -⟩ := regex_unescaped hmem rfl
  rw [hparts] at hsplit
  obtain rfl := hunique _ (congrArg Prod.fst hsplit)
  exact ⟨⟨_, hmem, rfl⟩, hparts, hunescaped⟩

end MiniLisp
