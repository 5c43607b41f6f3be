import MiniLisp.Proofs.Token.Extent

/-!
# Strings that are open

A string is open at the end of the text, and then it goes on in the next line. It is open as well at
a backslash in front of a line break. That is where it ends, and the next line does not belong to it
(`Token.Dangles`).

So a text has no open string, or one that dangles and stays open whatever the next lines say, or one
that is closed by a quote at the beginning of the next line (`open_string_cases`). In the last case
it is the last token of the text, and the tokens in front of it stay the same.
-/

namespace MiniLisp

namespace Lexer

/-- A text ends in a backslash that no character follows, if backslashes are taken together with the
character behind them. -/
def dangles : List Char → Bool
  | [] => false
  | ['\\'] => true
  | '\\' :: _ :: rest => dangles rest
  | _ :: rest => dangles rest

theorem dangles_escape (c : Char) (rest : List Char) :
    dangles ('\\' :: c :: rest) = dangles rest := by
  rw [dangles]

theorem dangles_plain {c : Char} (hc : c ≠ '\\') (rest : List Char) :
    dangles (c :: rest) = dangles rest := by
  rw [dangles]
  · exact fun h _ ↦ hc h
  · exact fun _ _ h _ ↦ hc h

end Lexer

/-- The token is a string that is open behind a backslash. -/
def Token.Dangles (t : Token) : Prop :=
  t.kind = .openString ∧ Lexer.dangles t.text.toList = true

instance (t : Token) : Decidable t.Dangles := inferInstanceAs (Decidable (_ ∧ _))

namespace Lexer

/-! ### Open strings as tokens -/

/-- Whether a string dangles is seen behind its body. -/
theorem StringBody.dangles_append {body : List Char} (h : StringBody body) (last : List Char) :
    dangles (body ++ last) = dangles last := by
  induction h with
  | nil => rfl
  | plain _ hbackslash _ ih => rw [List.cons_append, dangles_plain hbackslash, ih]
  | escape _ _ ih => rw [List.cons_append, List.cons_append, dangles_escape, ih]

/-- An open string that dangles is the same token with more on the next line, and one that does not
dangle becomes a string with a quote there. -/
theorem Takes.open_cases {text rest : List Char} (h : Takes .openString text rest) :
    (dangles text = true ∧ ∀ more, Takes .openString text (rest ++ '\n' :: more)) ∨
    (dangles text = false ∧ rest = [] ∧ ∀ more, Takes .string (text ++ ['\n', '"']) more) := by
  obtain ⟨body, last, rfl, hbody, hlast⟩ := (takes_string_iff false).mp h
  rw [dangles_plain (by decide), hbody.dangles_append]
  cases hlast with
  | backslash hrest =>
    refine .inl ⟨rfl, fun more ↦ (takes_string_iff false).mpr ⟨body, _, rfl, hbody, .backslash ?_⟩⟩
    rcases rest with - | ⟨c, rest⟩
    · exact atNewline_cons more
    · exact hrest
  | finish =>
    have hline : StringBody (body ++ ['\n']) := hbody.append (.plain (by decide) (by decide) .nil)
    refine .inr ⟨rfl, rfl, fun more ↦ (takes_string_iff true).mpr ⟨_, _, ?_, hline, .quote more⟩⟩
    rw [List.append_nil, List.append_assoc]
    rfl

/-! ### The tokens of a text -/

/-- A text that begins with an open string. If that dangles, then it is open whatever follows on the
next line; otherwise it is all of the text, and a quote on the next line closes it. -/
theorem tokensFrom_openString_cases {text rest : List Char} (htakes : Takes .openString text rest)
    (offset : Nat) :
    ((∃ t ∈ tokensFrom offset (text ++ rest), t.Dangles) ∧
      ∀ more, ∃ t ∈ tokensFrom offset (text ++ rest ++ '\n' :: more), ¬ t.isClosed = true) ∨
    ((∀ t ∈ tokensFrom offset (text ++ rest), ¬ t.Dangles) ∧ ∀ more, ∃ t offset',
      t.kind = .string ∧ tokensFrom offset (text ++ rest ++ '\n' :: '"' :: more) =
        (tokensFrom offset (text ++ rest)).takeWhile Token.isClosed ++
          t :: tokensFrom offset' more) := by
  have hopen : ¬ Token.isClosed
      ⟨.openString, String.ofList text, ⟨offset, offset + byteLength text⟩⟩ = true :=
    Bool.false_ne_true
  rw [tokensFrom_of_takes htakes offset]
  obtain ⟨hdangles, hagain⟩ | ⟨hdangles, rfl, hclosed⟩ := htakes.open_cases
  · refine .inl ⟨⟨_, List.mem_cons_self, rfl, ?_⟩, fun more ↦ ?_⟩
    · rwa [String.toList_ofList]
    · rw [List.append_assoc, tokensFrom_of_takes (hagain more)]
      exact ⟨_, List.mem_cons_self, hopen⟩
  · refine .inr ⟨?_, fun more ↦ ?_⟩
    · rw [tokensFrom_nil]
      refine List.forall_mem_singleton.mpr fun hboth ↦ ?_
      rw [Token.Dangles, String.toList_ofList, hdangles] at hboth
      exact Bool.false_ne_true hboth.2
    · have htext : (text ++ []) ++ '\n' :: '"' :: more = (text ++ ['\n', '"']) ++ more := by
        simp
      rw [htext, tokensFrom_of_takes (hclosed more), List.takeWhile_cons_of_neg hopen]
      exact ⟨_, _, rfl, rfl⟩

/-- **A text and its open string.** A text has no open string; or it has one that dangles, and then
some string is open whatever follows on the next line; or it has one that does not dangle, and then
a quote at the beginning of the next line closes it, and what follows is read on its own. -/
theorem open_string_cases (offset : Nat) (cs : List Char) :
    (∀ t ∈ tokensFrom offset cs, t.isClosed = true) ∨
    ((∃ t ∈ tokensFrom offset cs, t.Dangles) ∧
      ∀ more, ∃ t ∈ tokensFrom offset (cs ++ '\n' :: more), ¬ t.isClosed = true) ∨
    ((∀ t ∈ tokensFrom offset cs, ¬ t.Dangles) ∧
      ∀ more, ∃ t offset', t.kind = .string ∧ tokensFrom offset (cs ++ '\n' :: '"' :: more) =
        (tokensFrom offset cs).takeWhile Token.isClosed ++ t :: tokensFrom offset' more) := by
  induction cs using text_induct generalizing offset with
  | nil =>
    rw [tokensFrom_nil]
    exact .inl nofun
  | separator c rest hseparator ih =>
    simp only [List.cons_append, tokensFrom_separator hseparator]
    exact ih _
  | comment comment rest hcomment hrest ih =>
    simp only [List.cons_append, List.append_assoc, tokensFrom_comment hcomment hrest,
      tokensFrom_comment hcomment (hrest.append_line _)]
    exact ih _
  | token kind text rest htakes ih =>
    by_cases hkind : kind = .openString
    · subst hkind
      exact .inr (tokensFrom_openString_cases htakes offset)
    · have hclosed : Token.isClosed
          ⟨kind, String.ofList text, ⟨offset, offset + byteLength text⟩⟩ = true := by
        simpa [Token.isClosed] using hkind
      have hnot : ¬ Token.Dangles
          ⟨kind, String.ofList text, ⟨offset, offset + byteLength text⟩⟩ := fun h ↦ hkind h.1
      have hline (more : List Char) := tokensFrom_of_takes (htakes.append_line hkind more) offset
      rw [tokensFrom_of_takes htakes offset]
      simp only [List.append_assoc, hline, List.takeWhile_cons_of_pos hclosed, List.cons_append]
      obtain hall | ⟨⟨t, ht, hdangles⟩, hopen⟩ | ⟨hall, hstring⟩ := ih (offset + byteLength text)
      · exact .inl (List.forall_mem_cons.mpr ⟨hclosed, hall⟩)
      · refine .inr (.inl ⟨⟨t, List.mem_cons_of_mem _ ht, hdangles⟩, fun more ↦ ?_⟩)
        obtain ⟨u, hu, hnot⟩ := hopen more
        exact ⟨u, List.mem_cons_of_mem _ hu, hnot⟩
      · refine .inr (.inr ⟨List.forall_mem_cons.mpr ⟨hnot, hall⟩, fun more ↦ ?_⟩)
        obtain ⟨u, offset', hkind, htokens⟩ := hstring more
        exact ⟨u, offset', hkind, congrArg _ htokens⟩

end Lexer

end MiniLisp
