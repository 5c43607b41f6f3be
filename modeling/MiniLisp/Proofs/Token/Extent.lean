import MiniLisp.Proofs.Token.StringBody
import MiniLisp.Proofs.Token.Tiling

/-!
# Texts cut and continued

The lexer looks ahead, so the tokens of a piece of text need not be tokens of the whole. Two cuts
are shown to be harmless.

* **At a line break** (`exists_tokens_append_line`). A token that is closed ends on its line or,
  being a string, at its closing quote, so it is the same whatever the next line says. Only a string
  that is open may go on, and then the tokens in front of it are still the same.
* **At the end of a token** (`exists_piece_of_tokens`). The lexer may have looked at what follows
  the token, but only to find that it does not belong to it: the class of the run ends there, or no
  slash closes the line. Less text gives it no reason to go further.

Both come down to what one token sees of its surroundings (`munch_append_line`, `munch_of_append`),
which depends on how the token begins (`munch_cases`). From there on they are inductions along the
way of the lexer (`text_induct`).
-/

namespace MiniLisp

/-- The token is not a string that is open. -/
def Token.isClosed (t : Token) : Bool := t.kind != .openString

namespace Lexer

/-! ### Runs of one class -/

section Runs

variable {p : Char → Bool}

/-- A run does not go past a character of another class. -/
theorem takeWhile_append_stop {c : Char} (hc : p c = false) (cs more : List Char) :
    (cs ++ c :: more).takeWhile p = cs.takeWhile p := by
  induction cs with
  | nil => simp [hc]
  | cons d cs ih => simp only [List.cons_append, List.takeWhile_cons, ih]

/-- A run that is not longer than a piece of text is the run of that piece. -/
theorem takeWhile_of_append {cs : List Char} (more : List Char)
    (h : ((cs ++ more).takeWhile p).length ≤ cs.length) :
    cs.takeWhile p = (cs ++ more).takeWhile p := by
  rw [List.takeWhile_append] at h ⊢
  split at h
  · next hall =>
    have hmore : more.takeWhile p = [] := by
      rw [List.length_append] at h
      exact List.length_eq_zero_iff.mp (by omega)
    rw [if_pos hall, hmore, List.append_nil]
    exact (List.takeWhile_prefix p).eq_of_length hall
  · next hsome => rw [if_neg hsome]

end Runs

/-! ### Regular expressions -/

theorem closingSlash?_bounds {n stop : Nat} {escaped : Bool} {cs : List Char}
    (h : closingSlash? n escaped cs = some stop) : n < stop ∧ stop ≤ n + cs.length := by
  obtain ⟨body, flags, more, rfl, -, rfl, -⟩ := closes_of_closingSlash? h
  simp only [List.length_append, List.length_cons]
  omega

/-- What one character of a regular expression does: it breaks the line, closes the expression, or
leaves the decision to the next one. -/
theorem closingSlash?_cases (escaped : Bool) (c : Char) :
    (∀ n rest, closingSlash? n escaped (c :: rest) = none) ∨
    (∀ n rest, closingSlash? n escaped (c :: rest) =
      some (n + 1 + (rest.takeWhile Char.isAlpha).length)) ∨
    ∃ later, ∀ n rest, closingSlash? n escaped (c :: rest) = closingSlash? (n + 1) later rest := by
  by_cases hbreak : isLineBreak c = true
  · exact .inl fun n rest ↦ by rw [closingSlash?, if_pos hbreak]
  by_cases hescaped : escaped = true
  · exact .inr (.inr ⟨false, fun n rest ↦ by rw [closingSlash?, if_neg hbreak, if_pos hescaped]⟩)
  by_cases hbackslash : c = '\\'
  · exact .inr (.inr ⟨true, fun n rest ↦ by
      rw [closingSlash?, if_neg hbreak, if_neg hescaped, if_pos hbackslash]⟩)
  by_cases hslash : c = '/'
  · exact .inr (.inl fun n rest ↦ by
      rw [closingSlash?, if_neg hbreak, if_neg hescaped, if_neg hbackslash, if_pos hslash])
  · exact .inr (.inr ⟨false, fun n rest ↦ by
      rw [closingSlash?, if_neg hbreak, if_neg hescaped, if_neg hbackslash, if_neg hslash]⟩)

/-- No regular expression crosses a line break. -/
theorem closingSlash?_append_line (n : Nat) (escaped : Bool) (cs more : List Char) :
    closingSlash? n escaped (cs ++ '\n' :: more) = closingSlash? n escaped cs := by
  induction cs generalizing n escaped with
  | nil => rfl
  | cons c cs ih =>
    rw [List.cons_append]
    rcases closingSlash?_cases escaped c with hnone | hslash | ⟨later, hlater⟩
    · rw [hnone, hnone]
    · rw [hslash, hslash, takeWhile_append_stop (by decide)]
    · rw [hlater, hlater, ih]

/-- A regular expression that ends within a piece of text, if it ends at all, does so without what
follows the piece. -/
theorem closingSlash?_of_append {n : Nat} {escaped : Bool} {cs more : List Char}
    (h : ∀ stop ∈ closingSlash? n escaped (cs ++ more), stop ≤ n + cs.length) :
    closingSlash? n escaped cs = closingSlash? n escaped (cs ++ more) := by
  induction cs generalizing n escaped with
  | nil =>
    rw [closingSlash?, List.nil_append, eq_comm, Option.eq_none_iff_forall_not_mem]
    intro stop hstop
    have hle := h stop hstop
    have hlt := (closingSlash?_bounds hstop).1
    simp only [List.length_nil] at hle
    omega
  | cons c cs ih =>
    rw [List.cons_append] at h ⊢
    simp only [List.length_cons] at h
    rcases closingSlash?_cases escaped c with hnone | hslash | ⟨later, hlater⟩
    · rw [hnone, hnone]
    · have hle := h _ (hslash n (cs ++ more))
      rw [hslash, hslash, takeWhile_of_append more (by omega)]
    · rw [hlater] at h ⊢
      rw [hlater, ih fun stop hstop ↦ ?_]
      have hle := h stop hstop
      omega

theorem regexExtent?_append_line (cs more : List Char) :
    regexExtent? (cs ++ '\n' :: more) = regexExtent? cs := by
  rcases cs with - | ⟨c, cs⟩
  · rfl
  · rw [List.cons_append, regexExtent?, regexExtent?, ← List.cons_append, closingSlash?_append_line]

theorem regexExtent?_bounds {stop : Nat} {cs : List Char} (h : regexExtent? cs = some stop) :
    0 < stop ∧ stop ≤ cs.length := by
  rcases cs with - | ⟨c, cs⟩
  · cases h
  · rw [regexExtent?] at h
    split at h
    · cases h
    · simpa using closingSlash?_bounds h

theorem regexExtent?_of_append {cs : List Char} (more : List Char)
    (h : ∀ stop ∈ regexExtent? (cs ++ more), stop ≤ cs.length) :
    regexExtent? cs = regexExtent? (cs ++ more) := by
  rcases cs with - | ⟨c, cs⟩
  · rw [List.nil_append, regexExtent?, eq_comm, Option.eq_none_iff_forall_not_mem]
    intro stop hstop
    have hle := h stop hstop
    have hlt := (regexExtent?_bounds hstop).1
    simp only [List.length_nil] at hle
    omega
  · rw [List.cons_append, regexExtent?] at h ⊢
    rw [regexExtent?]
    split
    · rfl
    · next hc =>
      rw [if_neg hc] at h
      exact closingSlash?_of_append fun stop hstop ↦ by simpa using h stop hstop

/-! ### Tokens -/

/-- What a token sees of its surroundings, by the character it begins with: nothing, the next
character, or text of which the extent is known. -/
theorem munch_cases (c : Char) :
    (∃ kind, ∀ rest, munch c rest = (kind, 0)) ∨ c = ',' ∨ c = '"' ∨ c = '/' ∨
      isAtomStart c = true := by
  by_cases hother : c = ',' ∨ c = '"' ∨ c = '/' ∨ isAtomStart c = true
  · exact .inr hother
  · refine .inl ⟨(munch c []).1, fun rest ↦ ?_⟩
    unfold munch
    split
    all_goals simp_all

/-- No token goes beyond the end of the text. -/
theorem munch_le (c : Char) (rest : List Char) : (munch c rest).2 ≤ rest.length := by
  have hrun (p : Char → Bool) : (rest.takeWhile p).length ≤ rest.length :=
    (List.takeWhile_prefix p).length_le
  rcases munch_cases c with ⟨kind, hkind⟩ | rfl | rfl | rfl | hstart
  · rw [hkind]
    exact Nat.zero_le _
  · rw [munch_comma]
    rcases rest with - | ⟨d, rest⟩
    · exact Nat.le_refl 0
    · split <;> simp
  · simpa [munch_quote] using stringExtent_le 0 rest
  · rw [munch_slash]
    rcases hextent : regexExtent? rest with - | n
    · exact hrun _
    · exact (regexExtent?_bounds hextent).2
  · rw [munch_of_isAtomStart hstart]
    exact hrun _

/-- A token that is closed does not see beyond its line. -/
theorem munch_append_line {c : Char} {rest : List Char} (h : (munch c rest).1 ≠ .openString)
    (more : List Char) : munch c (rest ++ '\n' :: more) = munch c rest := by
  rcases munch_cases c with ⟨kind, hkind⟩ | rfl | rfl | rfl | hstart
  · rw [hkind, hkind]
  · rcases rest with - | ⟨d, rest⟩ <;> rfl
  · rcases hextent : stringExtent 0 rest with ⟨_ | _, n⟩
    · simp [munch_quote, hextent] at h
    · rw [munch_quote, munch_quote, hextent, stringExtent_append hextent]
  · rw [munch_slash, munch_slash, regexExtent?_append_line, takeWhile_append_stop (by decide)]
  · rw [munch_of_isAtomStart hstart, munch_of_isAtomStart hstart,
      takeWhile_append_stop (by decide)]

/-- A token that is closed and lies within a piece of text is the same without what follows the
piece. -/
theorem munch_of_append {c : Char} {rest more : List Char} {kind : TokenKind} {n : Nat}
    (h : munch c (rest ++ more) = (kind, n)) (hclosed : kind ≠ .openString)
    (hn : n ≤ rest.length) : munch c rest = (kind, n) := by
  rcases munch_cases c with ⟨kind', hkind⟩ | rfl | rfl | rfl | hstart
  · rw [hkind] at h ⊢
    exact h
  · rcases rest with - | ⟨d, rest⟩
    · obtain rfl : n = 0 := by simpa using hn
      rw [munch_comma] at h ⊢
      split at h
      · cases h
      · exact h
    · exact h
  · rw [munch_quote] at h ⊢
    rcases hextent : stringExtent 0 (rest ++ more) with ⟨_ | _, stop⟩
    · simp [hextent] at h
      exact absurd h.1.symm hclosed
    · obtain ⟨rfl, rfl⟩ : .string = kind ∧ stop = n := by simpa [hextent] using h
      rw [stringExtent_of_append hextent (by omega)]
      rfl
  · rw [munch_slash] at h ⊢
    rcases hextent : regexExtent? (rest ++ more) with - | stop
    · simp only [hextent, Prod.mk.injEq] at h
      have hnone : regexExtent? rest = none :=
        (regexExtent?_of_append more (by simp [hextent])).trans hextent
      rw [hnone, takeWhile_of_append more (by omega), ← h.1, ← h.2]
    · simp only [hextent, Prod.mk.injEq] at h
      have hstop : ∀ stop' ∈ regexExtent? (rest ++ more), stop' ≤ rest.length := by
        simp only [hextent, Option.mem_def, Option.some.injEq]
        omega
      rw [regexExtent?_of_append more hstop, hextent, ← h.1, ← h.2]
  · rw [munch_of_isAtomStart hstart] at h ⊢
    obtain ⟨rfl, rfl⟩ := Prod.mk.inj h
    rw [takeWhile_of_append more hn]

/-! ### Texts by what the lexer does -/

/-- Induction over texts: to what follows a separator, a comment or a token. -/
theorem text_induct {motive : List Char → Prop} (nil : motive [])
    (separator : ∀ c rest, isSeparator c = true → motive rest → motive (c :: rest))
    (comment : ∀ comment rest, (∀ c ∈ comment, isLineBreak c = false) → AtLineEnd rest →
      motive rest → motive (';' :: (comment ++ rest)))
    (token : ∀ kind text rest, Takes kind text rest → motive rest → motive (text ++ rest))
    (cs : List Char) : motive cs := by
  induction (0 : Nat), cs using tokensFrom.induct with
  | case1 => exact nil
  | case2 offset c rest hseparator ih => exact separator c rest hseparator ih
  | case3 offset rest front hseparator ih =>
    have hfront : ∀ c ∈ front, isLineBreak c = false := by
      intro c hc
      simpa using List.all_eq_true.mp List.all_takeWhile c hc
    have hmotive := comment front _ hfront (atLineEnd_dropWhile rest) ih
    rwa [List.takeWhile_append_dropWhile] at hmotive
  | case4 offset c rest hseparator hcomment kind n hmunch text stop ih =>
    have hn : n ≤ rest.length := by simpa [hmunch] using munch_le c rest
    have htakes : Takes kind (c :: rest.take n) (rest.drop n) := by
      refine ⟨Bool.eq_false_iff.mpr hseparator, hcomment, ?_⟩
      rw [List.take_append_drop, hmunch, List.length_take_of_le hn]
    have hmotive := token kind _ _ htakes ih
    rwa [List.cons_append, List.take_append_drop] at hmotive

theorem tokensFrom_comment {comment rest : List Char}
    (hcomment : ∀ c ∈ comment, isLineBreak c = false) (hrest : AtLineEnd rest) (offset : Nat) :
    tokensFrom offset (';' :: (comment ++ rest)) =
      tokensFrom (offset + byteLength (';' :: comment)) rest := by
  have hall : ∀ c ∈ comment, (!isLineBreak c) = true := by simpa using hcomment
  have hhead : rest.takeWhile (fun c ↦ !isLineBreak c) = [] ∧
      rest.dropWhile (fun c ↦ !isLineBreak c) = rest := by
    rcases rest with - | ⟨c, rest⟩
    · exact ⟨rfl, rfl⟩
    · have hc : isLineBreak c = true := hrest c rfl
      simp [hc]
  rw [tokensFrom, if_neg (by decide), if_pos rfl, List.takeWhile_append_of_pos hall,
    List.dropWhile_append_of_pos hall, hhead.1, hhead.2, List.append_nil, byteLength_cons,
    ← Nat.add_assoc]

theorem AtLineEnd.append_line {cs : List Char} (h : AtLineEnd cs) (more : List Char) :
    AtLineEnd (cs ++ '\n' :: more) := by
  rcases cs with - | ⟨c, cs⟩
  · rintro c ⟨⟩
    rfl
  · exact h

theorem AtLineEnd.of_append {cs more : List Char} (h : AtLineEnd (cs ++ more)) : AtLineEnd cs := by
  rcases cs with - | ⟨c, cs⟩
  · exact nofun
  · exact h

/-- A token that is closed does not see beyond its line. -/
theorem Takes.append_line {kind : TokenKind} {text rest : List Char} (h : Takes kind text rest)
    (hclosed : kind ≠ .openString) (more : List Char) :
    Takes kind text (rest ++ '\n' :: more) := by
  rcases text with - | ⟨c, cs⟩
  · exact h
  · obtain ⟨hseparator, hcomment, hmunch⟩ := h
    refine ⟨hseparator, hcomment, ?_⟩
    rw [← List.append_assoc, munch_append_line (by rw [hmunch]; exact hclosed), hmunch]

/-- A token that is closed is the same if less follows it. -/
theorem Takes.of_append {kind : TokenKind} {text rest more : List Char}
    (h : Takes kind text (rest ++ more)) (hclosed : kind ≠ .openString) : Takes kind text rest := by
  rcases text with - | ⟨c, cs⟩
  · exact h
  · obtain ⟨hseparator, hcomment, hmunch⟩ := h
    rw [← List.append_assoc] at hmunch
    exact ⟨hseparator, hcomment, munch_of_append hmunch hclosed (by simp)⟩

/-! ### The tokens of a text -/

/-- A token is what the lexer takes at its place in the text. -/
theorem exists_takes_of_mem {before cs : List Char} {t : Token}
    (h : t ∈ tokensFrom (byteLength before) cs) :
    ∃ after, t.span.Covers (before ++ cs) t.text.toList after ∧
      Takes t.kind t.text.toList after := by
  induction cs using text_induct generalizing before with
  | nil =>
    rw [tokensFrom_nil] at h
    exact absurd h List.not_mem_nil
  | separator c rest hseparator ih =>
    rw [tokensFrom_separator hseparator] at h
    simpa using @ih (before ++ [c]) (by simpa using h)
  | comment comment rest hcomment hrest ih =>
    rw [tokensFrom_comment hcomment hrest, ← byteLength_append] at h
    simpa using ih h
  | token kind text rest htakes ih =>
    rw [tokensFrom_of_takes htakes, ← byteLength_append] at h
    rcases List.mem_cons.mp h with rfl | h
    · rw [String.toList_ofList]
      exact ⟨rest, ⟨before, rfl, by rw [byteLength_append]⟩, htakes⟩
    · simpa using ih h

/-- **A text and the next line.** The tokens of a text up to the first string that is open are the
first tokens when a line follows. If no string is open, then all others are those of what follows.
-/
theorem exists_tokens_append_line (offset : Nat) (cs more : List Char) :
    ∃ ts, tokensFrom offset (cs ++ '\n' :: more) =
        (tokensFrom offset cs).takeWhile Token.isClosed ++ ts ∧
      ((∀ t ∈ tokensFrom offset cs, t.isClosed = true) →
        ts = tokensFrom (offset + byteLength cs + 1) more) := by
  induction cs using text_induct generalizing offset with
  | nil =>
    rw [List.nil_append, tokensFrom_separator rfl, tokensFrom_nil]
    exact ⟨_, rfl, fun _ ↦ rfl⟩
  | separator c rest hseparator ih =>
    obtain ⟨ts, hts, hlast⟩ := ih (offset + c.utf8Size)
    rw [List.cons_append, tokensFrom_separator hseparator, tokensFrom_separator hseparator]
    refine ⟨ts, hts, fun hclosed ↦ ?_⟩
    rw [hlast hclosed, byteLength_cons, Nat.add_assoc offset]
  | comment comment rest hcomment hrest ih =>
    obtain ⟨ts, hts, hlast⟩ := ih (offset + byteLength (';' :: comment))
    rw [List.cons_append, List.append_assoc, tokensFrom_comment hcomment (hrest.append_line more),
      tokensFrom_comment hcomment hrest]
    refine ⟨ts, hts, fun hclosed ↦ ?_⟩
    rw [hlast hclosed, Nat.add_assoc offset, ← byteLength_append, List.cons_append]
  | token kind text rest htakes ih =>
    obtain ⟨ts, hts, hlast⟩ := ih (offset + byteLength text)
    rw [tokensFrom_of_takes htakes]
    by_cases hkind : kind = .openString
    · -- Nothing is said of what follows a string that is open.
      have hopen : ¬ Token.isClosed
          ⟨kind, String.ofList text, ⟨offset, offset + byteLength text⟩⟩ = true := by
        simp [Token.isClosed, hkind]
      rw [List.takeWhile_cons_of_neg hopen]
      exact ⟨_, rfl, fun hclosed ↦ absurd (hclosed _ List.mem_cons_self) hopen⟩
    · rw [List.append_assoc, tokensFrom_of_takes (htakes.append_line hkind more), hts,
        List.takeWhile_cons_of_pos (by simpa [Token.isClosed] using hkind)]
      refine ⟨ts, rfl, fun hclosed ↦ ?_⟩
      rw [hlast (List.forall_mem_cons.mp hclosed).2, byteLength_append, ← Nat.add_assoc]

/-- **A piece of text.** The tokens of a text up to one of them, being closed, are all the tokens of
the text that ends there. -/
theorem exists_piece_of_tokens {offset : Nat} {cs : List Char} {ts us : List Token} {t : Token}
    (h : tokensFrom offset cs = ts ++ t :: us) (hclosed : ∀ u ∈ ts ++ [t], u.isClosed = true) :
    ∃ piece more, cs = piece ++ more ∧ t.span.stop = offset + byteLength piece ∧
      tokensFrom offset piece = ts ++ [t] := by
  induction cs using text_induct generalizing offset ts with
  | nil => simp [tokensFrom_nil] at h
  | separator c rest hseparator ih =>
    rw [tokensFrom_separator hseparator] at h
    obtain ⟨piece, more, rfl, hstop, hpiece⟩ := ih h hclosed
    refine ⟨c :: piece, more, rfl, ?_, ?_⟩
    · rw [hstop, byteLength_cons, Nat.add_assoc]
    · rw [tokensFrom_separator hseparator, hpiece]
  | comment comment rest hcomment hrest ih =>
    rw [tokensFrom_comment hcomment hrest] at h
    obtain ⟨piece, more, rfl, hstop, hpiece⟩ := ih h hclosed
    refine ⟨';' :: (comment ++ piece), more, by simp, ?_, ?_⟩
    · rw [hstop, ← List.cons_append, byteLength_append, Nat.add_assoc]
    · rw [tokensFrom_comment hcomment hrest.of_append, hpiece]
  | token kind text rest htakes ih =>
    rw [tokensFrom_of_takes htakes] at h
    have hkind (piece more : List Char) (hrest : rest = piece ++ more)
        (hfirst : kind ≠ .openString) : tokensFrom offset (text ++ piece) =
          ⟨kind, String.ofList text, ⟨offset, offset + byteLength text⟩⟩ ::
            tokensFrom (offset + byteLength text) piece := by
      rw [hrest] at htakes
      exact tokensFrom_of_takes (htakes.of_append hfirst) offset
    rcases ts with - | ⟨first, ts⟩
    · obtain ⟨rfl, -⟩ := List.cons.inj h
      have hfirst : kind ≠ .openString := by simpa [Token.isClosed] using hclosed
      refine ⟨text, rest, rfl, rfl, ?_⟩
      have hpiece := hkind [] rest rfl hfirst
      rwa [List.append_nil, tokensFrom_nil] at hpiece
    · obtain ⟨rfl, htail⟩ := List.cons.inj h
      obtain ⟨hfirst, hclosed⟩ := List.forall_mem_cons.mp hclosed
      obtain ⟨piece, more, rfl, hstop, hpiece⟩ := ih htail hclosed
      refine ⟨text ++ piece, more, by simp, ?_, ?_⟩
      · rw [hstop, byteLength_append, Nat.add_assoc]
      · rw [hkind piece more rfl (by simpa [Token.isClosed] using hfirst), hpiece, List.cons_append]

/-- The tokens of a text from one of them on are those of the text that begins there. -/
theorem exists_rest_of_tokens {offset : Nat} {cs : List Char} {ts us : List Token} {t : Token}
    (h : tokensFrom offset cs = ts ++ t :: us) :
    ∃ before rest, cs = before ++ rest ∧ t.span.start = offset + byteLength before ∧
      tokensFrom t.span.start rest = t :: us := by
  induction cs using text_induct generalizing offset ts with
  | nil => simp [tokensFrom_nil] at h
  | separator c rest hseparator ih =>
    rw [tokensFrom_separator hseparator] at h
    obtain ⟨before, rest, rfl, hstart, hrest⟩ := ih h
    refine ⟨c :: before, rest, rfl, ?_, hrest⟩
    rw [hstart, byteLength_cons, Nat.add_assoc]
  | comment comment rest hcomment hrest ih =>
    rw [tokensFrom_comment hcomment hrest] at h
    obtain ⟨before, rest, rfl, hstart, hrest⟩ := ih h
    refine ⟨';' :: (comment ++ before), rest, by simp, ?_, hrest⟩
    rw [hstart, ← List.cons_append, byteLength_append, Nat.add_assoc]
  | token kind text rest htakes ih =>
    have htokens := tokensFrom_of_takes htakes offset
    rw [htokens] at h
    rcases ts with - | ⟨first, ts⟩
    · obtain ⟨rfl, rfl⟩ := List.cons.inj h
      exact ⟨[], text ++ rest, rfl, rfl, htokens⟩
    · obtain ⟨-, htail⟩ := List.cons.inj h
      obtain ⟨before, rest, rfl, hstart, hrest⟩ := ih htail
      refine ⟨text ++ before, rest, by simp, ?_, hrest⟩
      rw [hstart, byteLength_append, Nat.add_assoc]

end Lexer

/-! ### Texts -/

/-- Every token of a text is what the lexer takes where it stands. -/
theorem exists_takes_of_mem_tokenize {source : String} {t : Token} (h : t ∈ tokenize source) :
    ∃ after, t.span.Covers source.toList t.text.toList after ∧
      Lexer.Takes t.kind t.text.toList after :=
  @Lexer.exists_takes_of_mem [] source.toList t h

theorem tokenize_append_line (s t : String) :
    tokenize (s ++ "\n" ++ t) = Lexer.tokensFrom 0 (s.toList ++ '\n' :: t.toList) := by
  simp [tokenize, String.toList_append]

end MiniLisp
