import MiniLisp.Proofs.Reading.Shift
import Mathlib.Data.List.TakeWhile

/-!
# Reading line by line

A text of several lines may be read a line at a time, as long as each one can be read: the forms of
the whole are the forms of its parts, in order and with spans moved (`read_lines`). An error is
final as well. Only a text that ends too early may become readable with another line, in an open
list, behind a mark or in an open string.

The tokens of the first text are the first tokens of the whole, up to a string that is open
(`Lexer.exists_tokens_append_line`). The reader fails at such a string if it has not failed before,
so in any other case it comes to the second text by itself, with nothing open, or has failed.
-/

namespace MiniLisp

namespace Reader

/-- The reader fails at a string that is open. -/
theorem step_of_not_isClosed {t : Token} (h : ¬ t.isClosed = true) (st : State) :
    step st t = .error (.lexical .unterminatedString t.span) := by
  have hkind : t.kind = .openString := by simpa [Token.isClosed] using h
  simp only [step, hkind, atom]
  rfl

/-- Tokens that are accepted are closed. -/
theorem isClosed_of_steps {st st' : State} {ts : List Token} (h : steps st ts = .ok st') :
    ∀ t ∈ ts, t.isClosed = true := by
  induction ts generalizing st with
  | nil => exact nofun
  | cons t ts ih =>
    obtain ⟨next, hstep, hsteps⟩ := exists_of_steps_cons h
    refine List.forall_mem_cons.mpr ⟨?_, ih hsteps⟩
    by_contra hopen
    rw [step_of_not_isClosed hopen] at hstep
    cases hstep

/-- Tokens are rejected as soon as one of them is, or else at their end. -/
theorem steps_of_readTokens_error {ts : List Token} {e : ReadError}
    (h : readTokens ts = .error e) (hend : ∀ missing, e ≠ .unexpectedEnd missing) :
    steps .initial ts = .error e := by
  rw [readTokens] at h
  rcases hst : steps .initial ts with e' | ⟨stack, done⟩
  · rw [hst] at h
    cases h
    rfl
  · rw [hst] at h
    rcases stack with - | ⟨⟨start, items, dot⟩ | ⟨m, span⟩, stack⟩
    · cases h
    · exact absurd (Except.error.inj h).symm (hend _)
    · exact absurd (Except.error.inj h).symm (hend _)

/-- Of tokens that are rejected, those up to the first string that is open decide, unless it is that
string that is complained of. -/
theorem steps_takeWhile_isClosed {st : State} {ts : List Token} {e : ReadError}
    (h : steps st ts = .error e) (hstring : ∀ span, e ≠ .lexical .unterminatedString span) :
    steps st (ts.takeWhile Token.isClosed) = .error e := by
  induction ts generalizing st with
  | nil => cases h
  | cons t ts ih =>
    rw [steps] at h
    by_cases hclosed : t.isClosed = true
    · rw [List.takeWhile_cons_of_pos hclosed, steps]
      rcases hstep : step st t with e' | next
      · rw [hstep] at h
        exact h
      · rw [hstep] at h
        exact ih h
    · rw [step_of_not_isClosed hclosed] at h
      exact absurd (Except.error.inj h).symm (hstring t.span)

end Reader

/-- If no string is open, then the tokens of the next line follow. -/
theorem tokenize_append_line_of_isClosed {s : String} (h : ∀ u ∈ tokenize s, u.isClosed = true)
    (t : String) : tokenize (s ++ "\n" ++ t) =
      tokenize s ++ Lexer.tokensFrom (byteLength s.toList + 1) t.toList := by
  obtain ⟨ts, hts, hlast⟩ := Lexer.exists_tokens_append_line 0 s.toList t.toList
  rw [tokenize_append_line, hts, hlast h, Nat.zero_add]
  exact congrArg (· ++ _) (List.takeWhile_eq_self_iff.mpr h)

/-- The tokens of a text with another one on the next line are those of the first up to a string
that is open, and if there is none, then those of the other text further on. -/
theorem exists_tokenize_line (s t : String) :
    ∃ ts, tokenize (s ++ "\n" ++ t) = (tokenize s).takeWhile Token.isClosed ++ ts ∧
      ((∀ u ∈ tokenize s, u.isClosed = true) →
        ts = (tokenize t).map (Token.shift (byteLength s.toList + 1))) := by
  obtain ⟨ts, hts, hlast⟩ := Lexer.exists_tokens_append_line 0 s.toList t.toList
  refine ⟨ts, (tokenize_append_line s t).trans hts, fun hclosed ↦ ?_⟩
  rw [hlast hclosed, Nat.add_assoc, Lexer.tokensFrom_shift]
  rfl

/-- **Reading goes line by line.** If a text is read as some forms, then with another text on the
next line it is read as these forms and those of the other text, or gives the error of the other
text, with spans moved by what stands in front. A text that is rejected is rejected with the same
error whatever follows on the next line, unless it ends too early, in a form or in a string. -/
theorem read_lines (s t : String) :
    (∀ fs, read s = .ok fs → read (s ++ "\n" ++ t) = match read t with
      | .ok gs => .ok (fs ++ gs.map (Node.shift (byteLength s.toList + 1)))
      | .error e => .error (e.shift (byteLength s.toList + 1))) ∧
    ∀ e, read s = .error e → (∀ missing, e ≠ .unexpectedEnd missing) →
      (∀ span, e ≠ .lexical .unterminatedString span) → read (s ++ "\n" ++ t) = .error e := by
  obtain ⟨ts, hts, hlast⟩ := exists_tokenize_line s t
  refine ⟨fun fs h ↦ ?_, fun e h hend hstring ↦ ?_⟩
  · have hsteps := Reader.steps_of_readTokens h
    have hclosed := Reader.isClosed_of_steps hsteps
    -- The other text is read by itself, only further on and behind the forms of the first.
    have hall : Reader.steps .initial (tokenize (s ++ "\n" ++ t)) =
        Reader.shiftResult (byteLength s.toList + 1) fs.reverse
          (Reader.steps .initial (tokenize t)) := by
      rw [hts, List.takeWhile_eq_self_iff.mpr hclosed, hlast hclosed, Reader.steps_append, hsteps,
        ← Reader.steps_shift]
      rfl
    rw [read, readTokens, hall, read, readTokens]
    rcases Reader.steps .initial (tokenize t) with e | st
    · rfl
    · have hfinish := Reader.finish_shift (byteLength s.toList + 1) fs.reverse st
      rw [List.reverse_reverse] at hfinish
      exact hfinish
  · have hsteps := Reader.steps_takeWhile_isClosed (Reader.steps_of_readTokens_error h hend) hstring
    have hall : Reader.steps .initial (tokenize (s ++ "\n" ++ t)) = .error e := by
      rw [hts, Reader.steps_append, hsteps]
      rfl
    rw [read, readTokens, hall]

/-- A comment ends with its line, and so does a text that is rejected. -/
theorem read_lines_comment :
    read ("a ;b" ++ "\n" ++ "'c") =
        .ok [.symbol "a" ⟨0, 1⟩, .tagged "quote" ⟨5, 6⟩ (.symbol "c" ⟨6, 7⟩)] ∧
      read ("a)" ++ "\n" ++ "(\"") =
        .error (.unexpectedToken ⟨.rightParen, ")", ⟨1, 2⟩⟩ .expression) := by
  have hfirst : tokenize "a ;b" = [⟨.symbol, "a", ⟨0, 1⟩⟩] := by decide +kernel
  have hsecond : tokenize "'c" = [⟨.quote, "'", ⟨0, 1⟩⟩, ⟨.symbol, "c", ⟨1, 2⟩⟩] := by
    decide +kernel
  have hbracket : tokenize "a)" = [⟨.symbol, "a", ⟨0, 1⟩⟩, ⟨.rightParen, ")", ⟨1, 2⟩⟩] := by
    decide +kernel
  constructor
  · have hread := (read_lines "a ;b" "'c").1 [.symbol "a" ⟨0, 1⟩] (by rw [read, hfirst]; rfl)
    rw [hread, read, hsecond]
    rfl
  · exact (read_lines "a)" "(\"").2 _ (by rw [read, hbracket]; rfl) nofun nofun

end MiniLisp
