import MiniLisp.Proofs.Token.Extent

/-!
# Texts laid out anew

What stands between tokens only keeps them apart. If each token of a text is put on a line of its
own, then the tokens are what they were (`tokenize_relaid`), however they stood in the text:
with comments between them, or next to each other without a gap, or as pieces that can be part of
no program.

A token may owe its kind to what follows it. A slash begins a symbol as long as no slash closes the
line, and a string is open if no quote comes. A line break in the place of what followed never
changes the decision (`Takes.relaid`): it ends every run, it closes nothing, and a string that is
open was either the end of the text or stood in front of a line break already.
-/

namespace MiniLisp

/-- The token without its place. -/
def Token.lexeme (t : Token) : TokenKind × String := (t.kind, t.text)

namespace Lexer

/-! ### One token -/

/-- **A token on a line of its own.** A token is the same at the end of a text, and if anything
followed it, then in front of a line break as well. -/
theorem Takes.relaid {kind : TokenKind} {text rest : List Char} (h : Takes kind text rest) :
    Takes kind text [] ∧ (rest ≠ [] → ∀ more, Takes kind text ('\n' :: more)) := by
  by_cases hkind : kind = .openString
  · subst hkind
    rcases h.openString_end with rfl | hagain
    · exact ⟨h, fun hrest ↦ absurd rfl hrest⟩
    · exact ⟨hagain [] nofun, fun _ more ↦ hagain _ (atNewline_cons more)⟩
  · have halone : Takes kind text [] := @Takes.of_append kind text [] rest h hkind
    exact ⟨halone, fun _ more ↦ halone.append_line hkind more⟩

/-! ### All tokens -/

/-- The tokens of a text are those of their own texts with a line break between any two. -/
theorem lexemes_relaid (offset offset' : Nat) (cs : List Char) :
    (tokensFrom offset' (['\n'].intercalate
        ((tokensFrom offset cs).map fun t ↦ t.text.toList))).map Token.lexeme =
      (tokensFrom offset cs).map Token.lexeme := by
  induction cs using text_induct generalizing offset offset' with
  | nil => rw [tokensFrom_nil, List.map_nil, List.intercalate_nil, tokensFrom_nil, List.map_nil]
  | separator c rest hseparator ih =>
    rw [tokensFrom_separator hseparator]
    exact ih _ _
  | comment comment rest hcomment hrest ih =>
    rw [tokensFrom_comment hcomment hrest]
    exact ih _ _
  | token kind text rest htakes ih =>
    obtain ⟨halone, hbefore⟩ := htakes.relaid
    rw [tokensFrom_of_takes htakes, List.map_cons, String.toList_ofList]
    rcases htokens : tokensFrom (offset + byteLength text) rest with - | ⟨next, ts⟩
    · -- The last token stands at the end of the text.
      have hlast := tokensFrom_of_takes halone offset'
      rw [List.append_nil, tokensFrom_nil] at hlast
      rw [List.map_nil, List.intercalate_singleton, hlast]
      rfl
    · have hrest : rest ≠ [] := by
        rintro rfl
        rw [tokensFrom_nil] at htokens
        cases htokens
      have ih := ih (offset + byteLength text) (offset' + byteLength text + '\n'.utf8Size)
      rw [htokens, List.map_cons] at ih
      rw [List.map_cons, List.intercalate_cons_cons, List.append_assoc, List.singleton_append,
        tokensFrom_of_takes (hbefore hrest _), tokensFrom_separator rfl, List.map_cons, ih]
      rfl

end Lexer

/-- **Only the tokens of a text matter, and not how they are laid out.** If every token of a text is
put on a line of its own, then the new text has the same tokens: as many, in the same order, of the
same kinds and with the same texts. -/
theorem tokenize_relaid (source : String) :
    (tokenize ("\n".intercalate (tokenTexts source))).map Token.lexeme =
      (tokenize source).map Token.lexeme := by
  have htext : ("\n".intercalate (tokenTexts source)).toList =
      ['\n'].intercalate ((tokenize source).map fun t ↦ t.text.toList) := by
    rw [String.toList_intercalate, tokenTexts, List.map_map]
    rfl
  rw [tokenize, htext]
  exact Lexer.lexemes_relaid 0 0 source.toList

end MiniLisp
