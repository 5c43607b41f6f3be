import MiniLisp.Proofs.Prompt.Verdict
import MiniLisp.Proofs.Token.OpenString

/-!
# Finishing an entry

An entry that is incomplete waits for more lines. If no string is open, then a line with a closing
bracket for each open list makes it complete. If one is open, then the line has to close it first,
with a quote. So an incomplete entry can be finished, unless it has a string that is open behind a
backslash (`incomplete_finished_iff`). The next line never belongs to such a string, so there is no
way to close it, and the prompt waits for ever (`incomplete_stuck`).
-/

namespace MiniLisp

namespace Prompt

/-! ### Verdicts on tokens in a row -/

/-- A text with an open string is never complete. -/
theorem verdictFrom_ne_complete {ts : List Token} {t : Token} (ht : t ∈ ts)
    (hopen : ¬ t.isClosed = true) (depth : Nat) : verdictFrom depth ts ≠ .complete := by
  induction ts generalizing depth with
  | nil => exact absurd ht List.not_mem_nil
  | cons first ts ih =>
    by_cases hstring : first.kind = .openString
    · simp [verdictFrom, hstring]
    · have hrest : t ∈ ts := by
        refine (List.mem_cons.mp ht).resolve_left ?_
        rintro rfl
        exact hopen (by simpa [Token.isClosed] using hstring)
      by_cases hleft : first.kind = .leftParen
      · rw [verdictFrom_leftParen hleft]
        exact ih hrest _
      by_cases hright : first.kind = .rightParen
      · cases depth with
        | zero => simp [verdictFrom, hright]
        | succ depth =>
          rw [verdictFrom_rightParen hright]
          exact ih hrest _
      · rw [verdictFrom_of_other hleft hright hstring]
        exact ih hrest _

/-- Behind closed tokens without an unmatched bracket some number of lists is open, and the verdict
goes on from there. -/
theorem exists_depth {depth : Nat} {before after : List Token}
    (hclosed : ∀ t ∈ before, t.isClosed = true)
    (h : ∀ offset, verdictFrom depth (before ++ after) ≠ .unmatched offset) :
    ∃ later, ∀ ts, verdictFrom depth (before ++ ts) = verdictFrom later ts := by
  induction before generalizing depth with
  | nil => exact ⟨depth, fun _ ↦ rfl⟩
  | cons t before ih =>
    obtain ⟨hfirst, hbefore⟩ := List.forall_mem_cons.mp hclosed
    -- The first token only changes how many lists are open for those behind it.
    have step {next : Nat}
        (hnext : ∀ ts, verdictFrom depth (t :: ts) = verdictFrom next ts) :
        ∃ later, ∀ ts, verdictFrom depth (t :: before ++ ts) = verdictFrom later ts := by
      simp only [List.cons_append, hnext] at h ⊢
      exact ih hbefore h
    by_cases hleft : t.kind = .leftParen
    · exact step (verdictFrom_leftParen hleft depth)
    by_cases hright : t.kind = .rightParen
    · cases depth with
      | zero => exact absurd (by simp [verdictFrom, hright]) (h t.span.start)
      | succ depth => exact step (verdictFrom_rightParen hright depth)
    · exact step (verdictFrom_of_other hleft hright (by simpa [Token.isClosed] using hfirst) depth)

/-- As many closing brackets as there are open lists close them all. -/
theorem verdictFrom_brackets (depth offset : Nat) :
    verdictFrom depth (Lexer.tokensFrom offset (List.replicate depth ')')) = .complete := by
  induction depth generalizing offset with
  | zero =>
    rw [List.replicate_zero, Lexer.tokensFrom_nil]
    rfl
  | succ depth ih =>
    have htokens := Lexer.tokensFrom_of_takes
      (Lexer.takes_rightParen (List.replicate depth ')')) offset
    rw [List.replicate_succ, ← List.singleton_append, htokens, verdictFrom_rightParen rfl]
    exact ih _

end Prompt

open Prompt

/-! ### Entries -/

/-- A string that dangles keeps the text from being complete, whatever follows on the next line. -/
theorem verdict_ne_complete_of_dangles {p : String} (h : ∃ token ∈ tokenize p, token.Dangles)
    (t : String) : verdict (p ++ "\n" ++ t) ≠ .complete := by
  obtain ⟨token, htoken, hdangles⟩ := h
  rw [verdict, tokenize_append_line]
  obtain hclosed | ⟨-, hopen⟩ | ⟨hnone, -⟩ := Lexer.open_string_cases 0 p.toList
  · have hkind := hclosed token htoken
    rw [Token.isClosed, hdangles.1] at hkind
    cases hkind
  · obtain ⟨u, hu, hnot⟩ := hopen t.toList
    exact verdictFrom_ne_complete hu hnot 0
  · exact absurd hdangles (hnone token htoken)

/-- The tokens in front of the open string leave lists open that can be closed behind it. -/
theorem exists_verdict_eq_complete {p : String} (h : verdict p = .incomplete)
    (hnone : ∀ token ∈ tokenize p, ¬ token.Dangles) :
    ∃ t, verdict (p ++ "\n" ++ t) = .complete := by
  have hmatched (offset : Nat) : verdictFrom 0 ((tokenize p).takeWhile Token.isClosed ++
      (tokenize p).dropWhile Token.isClosed) ≠ .unmatched offset := by
    rw [List.takeWhile_append_dropWhile]
    intro hunmatched
    cases h.symm.trans hunmatched
  obtain ⟨depth, hdepth⟩ := exists_depth (List.all_eq_true.mp List.all_takeWhile) hmatched
  obtain hclosed | ⟨⟨token, htoken, hdangles⟩, -⟩ | ⟨-, hstring⟩ :=
    Lexer.open_string_cases 0 p.toList
  · obtain ⟨ts, hts, hlast⟩ :=
      Lexer.exists_tokens_append_line 0 p.toList (List.replicate depth ')')
    refine ⟨String.ofList (List.replicate depth ')'), ?_⟩
    rw [verdict, tokenize_append_line, String.toList_ofList, hts, hlast hclosed]
    exact (hdepth _).trans (verdictFrom_brackets depth _)
  · exact absurd hdangles (hnone token htoken)
  · obtain ⟨u, offset, hkind, htokens⟩ := hstring (List.replicate depth ')')
    refine ⟨String.ofList ('"' :: List.replicate depth ')'), ?_⟩
    have hother : verdictFrom depth (u :: Lexer.tokensFrom offset (List.replicate depth ')')) =
        verdictFrom depth (Lexer.tokensFrom offset (List.replicate depth ')')) :=
      verdictFrom_of_other (by simp [hkind]) (by simp [hkind]) (by simp [hkind]) depth _
    rw [verdict, tokenize_append_line, String.toList_ofList, htokens]
    exact (hdepth _).trans (hother.trans (verdictFrom_brackets depth offset))

/-- **An incomplete entry can be finished** with a text on the next line exactly when none of its
strings dangles, that is, is open behind a backslash. -/
theorem incomplete_finished_iff {p : String} (h : verdict p = .incomplete) :
    (∃ t, verdict (p ++ "\n" ++ t) = .complete) ↔ ∀ token ∈ tokenize p, ¬ token.Dangles := by
  constructor
  · rintro ⟨t, hcomplete⟩ token htoken hdangles
    exact verdict_ne_complete_of_dangles ⟨token, htoken, hdangles⟩ t hcomplete
  · exact exists_verdict_eq_complete h

/-- A list and a string in it are open. The string ends in a backslash that is escaped. -/
theorem incomplete_finished_string :
    let p := "(a \"b\\\\"
    verdict p = .incomplete ∧ (∀ token ∈ tokenize p, ¬ token.Dangles) ∧
      ∃ t, verdict (p ++ "\n" ++ t) = .complete := by
  intro p
  have hverdict : verdict p = .incomplete := by decide +kernel
  have hnone : ∀ token ∈ tokenize p, ¬ token.Dangles := by decide +kernel
  exact ⟨hverdict, hnone, (incomplete_finished_iff hverdict).mpr hnone⟩

/-- A quote and a backslash alone are incomplete and stay so. -/
theorem incomplete_stuck :
    let p := "\"\\"
    verdict p = .incomplete ∧ ¬ ∃ t, verdict (p ++ "\n" ++ t) = .complete := by
  intro p
  have hdangles : ∃ token ∈ tokenize p, token.Dangles := by decide +kernel
  refine ⟨by decide +kernel, ?_⟩
  rintro ⟨t, hcomplete⟩
  exact verdict_ne_complete_of_dangles hdangles t hcomplete

end MiniLisp
