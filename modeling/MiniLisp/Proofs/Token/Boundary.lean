import MiniLisp.Token.Lexer

/-!
# Where tokens end

How far a token goes may depend on what follows it: an atom goes on as long as there are symbol
characters, and a regular expression as long as there are flags. At a boundary (`AtBoundary`) both
end. So a text that is one token there (`Takes`) is that token whatever comes after the boundary,
and the lexer goes on behind it (`tokensFrom_of_takes`).

Texts of tokens are found in two ways. Brackets and dots are known outright. Symbols and regular
expressions are only known to be tokens of some other text, and it is shown that such a token is
taken again, as the same kind and to the same end (`takes_symbol_of_munch`, `takes_regex_of_munch`).
What the kind of a token says of its beginning is stated once for all kinds (`munch_eq_cases`).
-/

namespace MiniLisp

namespace Lexer

/-- What follows is nothing, a separator or a closing bracket. -/
def AtBoundary (rest : List Char) : Prop := ∀ c ∈ rest.head?, isSeparator c = true ∨ c = ')'

/-- A text is one token of a kind in front of what follows it. -/
def Takes (kind : TokenKind) : List Char → List Char → Prop
  | [], _ => False
  | c :: cs, rest =>
    isSeparator c = false ∧ c ≠ ';' ∧ munch c (cs ++ rest) = (kind, cs.length)

instance (kind : TokenKind) (text rest : List Char) : Decidable (Takes kind text rest) :=
  match text with
  | [] => inferInstanceAs (Decidable False)
  | _ :: _ => inferInstanceAs (Decidable (_ ∧ _ ∧ _))

theorem atBoundary_nil : AtBoundary [] := nofun

theorem atBoundary_space (rest : List Char) : AtBoundary (' ' :: rest) := by
  rintro c ⟨⟩
  exact .inl rfl

theorem atBoundary_bracket (rest : List Char) : AtBoundary (')' :: rest) := by
  rintro c ⟨⟩
  exact .inr rfl

/-- A class of characters that has none of those at a boundary ends there. -/
theorem takeWhile_eq_of_atBoundary {p : Char → Bool} {cs rest : List Char}
    (hp : ∀ c, isSeparator c = true ∨ c = ')' → p c = false) (hcs : ∀ c ∈ cs, p c = true)
    (hrest : AtBoundary rest) : (cs ++ rest).takeWhile p = cs := by
  rw [List.takeWhile_append_of_pos hcs]
  cases rest with
  | nil => exact List.append_nil cs
  | cons c rest =>
    have hc : p c = false := hp c (hrest c rfl)
    rw [List.takeWhile_cons_of_neg (by rw [hc]; exact Bool.false_ne_true), List.append_nil]

/-- As many characters as a run has are the run. -/
theorem take_length_takeWhile (p : Char → Bool) (cs : List Char) :
    cs.take (cs.takeWhile p).length = cs.takeWhile p :=
  (List.prefix_iff_eq_take.mp (List.takeWhile_prefix p)).symm

/-! ### The lexer at a token -/

theorem tokensFrom_nil (offset : Nat) : tokensFrom offset [] = [] := by
  rw [tokensFrom]

/-- A separator is skipped. -/
theorem tokensFrom_separator {c : Char} (hc : isSeparator c = true) (offset : Nat)
    (rest : List Char) : tokensFrom offset (c :: rest) = tokensFrom (offset + c.utf8Size) rest := by
  rw [tokensFrom, if_pos hc]

theorem tokensFrom_space (offset : Nat) (rest : List Char) :
    tokensFrom offset (' ' :: rest) = tokensFrom (offset + 1) rest :=
  tokensFrom_separator rfl offset rest

/-- A text that is one token gives this token, and the lexer goes on behind it. -/
theorem tokensFrom_of_takes {kind : TokenKind} {text rest : List Char} (h : Takes kind text rest)
    (offset : Nat) : tokensFrom offset (text ++ rest) =
      ⟨kind, String.ofList text, ⟨offset, offset + byteLength text⟩⟩ ::
        tokensFrom (offset + byteLength text) rest := by
  cases text with
  | nil => exact absurd h id
  | cons c cs =>
    obtain ⟨hseparator, hcomment, hmunch⟩ := h
    rw [List.cons_append, tokensFrom, if_neg (by rw [hseparator]; exact Bool.false_ne_true),
      if_neg hcomment, hmunch]
    show _ :: tokensFrom _ ((cs ++ rest).drop cs.length) = _
    rw [List.drop_left, List.take_left]

/-- As above, where the place of the token does not matter. -/
theorem exists_token_of_takes {kind : TokenKind} {text rest : List Char} (h : Takes kind text rest)
    (offset : Nat) : ∃ t offset', t.kind = kind ∧ t.text = String.ofList text ∧
      tokensFrom offset (text ++ rest) = t :: tokensFrom offset' rest :=
  ⟨_, _, rfl, rfl, tokensFrom_of_takes h offset⟩

/-- A text that is one token when nothing follows it has no other. -/
theorem tokenize_of_takes {kind : TokenKind} {text : String} (h : Takes kind text.toList []) :
    ∃ span, tokenize text = [⟨kind, text, span⟩] := by
  have htokens := tokensFrom_of_takes h 0
  rw [List.append_nil, tokensFrom_nil, String.ofList_toList] at htokens
  exact ⟨_, htokens⟩

/-- Every token of a text was taken by the lexer somewhere in it. -/
theorem exists_munch_of_mem {t : Token} {offset : Nat} {cs : List Char}
    (h : t ∈ tokensFrom offset cs) :
    ∃ c rest n, munch c rest = (t.kind, n) ∧ t.text = String.ofList (c :: rest.take n) := by
  induction offset, cs using tokensFrom.induct with
  | case1 offset => rw [tokensFrom] at h; exact absurd h List.not_mem_nil
  | case2 offset c rest hseparator ih =>
    rw [tokensFrom, if_pos hseparator] at h
    exact ih h
  | case3 offset rest comment hseparator ih =>
    rw [tokensFrom, if_neg hseparator, if_pos rfl] at h
    exact ih h
  | case4 offset c rest hseparator hcomment kind n hmunch text stop ih =>
    rw [tokensFrom, if_neg hseparator, if_neg hcomment, hmunch] at h
    rcases List.mem_cons.mp h with rfl | h
    · exact ⟨c, rest, n, hmunch, rfl⟩
    · exact ih h

/-! ### Brackets -/

theorem takes_leftParen (rest : List Char) : Takes .leftParen ['('] rest := ⟨rfl, nofun, rfl⟩

theorem takes_rightParen (rest : List Char) : Takes .rightParen [')'] rest := ⟨rfl, nofun, rfl⟩

/-! ### Atoms -/

/-- The characters that a boundary may begin with. -/
def boundaryChars : List Char := [' ', '\t', '\n', '\r', '\x0c', ')']

theorem mem_boundaryChars {c : Char} (h : isSeparator c = true ∨ c = ')') : c ∈ boundaryChars := by
  simpa [isSeparator, boundaryChars, or_assoc] using h

/-- A class of characters is left at a boundary if it has none of those. -/
theorem eq_false_of_boundary {p : Char → Bool}
    (hp : (boundaryChars.all fun c ↦ p c == false) = true) {c : Char}
    (h : isSeparator c = true ∨ c = ')') : p c = false :=
  beq_iff_eq.mp (List.all_eq_true.mp hp c (mem_boundaryChars h))

theorem isAtomChar_of_boundary {c : Char} (h : isSeparator c = true ∨ c = ')') :
    isAtomChar c = false :=
  eq_false_of_boundary (by decide) h

/-- The characters that the lexer treats on their own, separators among them. -/
def delimiters : List Char :=
  ['(', ')', '\'', '\x60', ',', '"', '/', ';', ' ', '\t', '\n', '\r', '\x0c']

/-- No delimiter begins an atom. -/
theorem ne_of_isAtomStart {c d : Char} (h : isAtomStart c = true) (hd : d ∈ delimiters) :
    c ≠ d := by
  have hall : (delimiters.all fun d ↦ isAtomStart d == false) = true := by decide
  rintro rfl
  rw [beq_iff_eq.mp (List.all_eq_true.mp hall c hd)] at h
  cases h

theorem isSeparator_of_isAtomStart {c : Char} (h : isAtomStart c = true) :
    isSeparator c = false := by
  rw [Bool.eq_false_iff]
  intro hc
  have hd : c ∈ delimiters := by
    have hc : c ∈ [' ', '\t', '\n', '\r', '\x0c'] := by simpa [isSeparator, or_assoc] using hc
    exact List.mem_append_right ['(', ')', '\'', '\x60', ',', '"', '/', ';'] hc
  exact ne_of_isAtomStart h hd rfl

/-- An atom goes on as long as there are symbol characters, and its text decides its kind. -/
theorem munch_of_isAtomStart {c : Char} (h : isAtomStart c = true) (rest : List Char) :
    munch c rest =
      (atomKind (c :: rest.takeWhile isAtomChar), (rest.takeWhile isAtomChar).length) := by
  unfold munch
  split
  case h_8 => rw [if_pos h]
  all_goals exact absurd rfl (ne_of_isAtomStart h (by simp [delimiters]))

/-! ### Kinds and beginnings -/

theorem munch_comma (rest : List Char) :
    munch ',' rest = if rest.head? = some '@' then (.splice, 1) else (.unquote, 0) := rfl

theorem munch_quote (rest : List Char) : munch '"' rest =
    (if (stringExtent 0 rest).1 then .string else .openString, (stringExtent 0 rest).2) := rfl

theorem munch_slash (rest : List Char) : munch '/' rest = match regexExtent? rest with
    | some n => (.regex, n)
    | none => (.symbol, (rest.takeWhile isSlashSymbolChar).length) := rfl

/-- The kinds of an atom. -/
def atomKinds : List TokenKind := [.dot, .boolean, .number, .symbol]

theorem atomKind_mem (cs : List Char) : atomKind cs ∈ atomKinds := by
  unfold atomKind
  repeat' split
  all_goals decide

/-- The kinds of strings. -/
def stringKinds : List TokenKind := [.string, .openString]

/-- The kinds of the tokens that are neither atoms nor strings and begin with no slash. -/
def markKinds : List TokenKind :=
  [.leftParen, .rightParen, .quote, .quasiquote, .unquote, .splice, .invalid]

/-- How a token begins tells its kind, and for a regular expression also where it ends. -/
theorem munch_eq_cases {c : Char} {rest : List Char} {kind : TokenKind} {n : Nat}
    (h : munch c rest = (kind, n)) :
    kind ∈ markKinds ∨ (kind ∈ stringKinds ∧ c = '"') ∨
      (kind = .regex ∧ c = '/' ∧ regexExtent? rest = some n) ∨ (kind = .symbol ∧ c = '/') ∨
      (kind ∈ atomKinds ∧ isAtomStart c = true) := by
  by_cases hquote : c = '"'
  · subst hquote
    rw [munch_quote] at h
    obtain ⟨rfl, -⟩ := Prod.mk.inj h
    refine .inr (.inl ⟨?_, rfl⟩)
    split <;> decide
  by_cases hslash : c = '/'
  · subst hslash
    rw [munch_slash] at h
    split at h
    · next stop hextent =>
      obtain ⟨rfl, rfl⟩ := Prod.mk.inj h
      exact .inr (.inr (.inl ⟨rfl, rfl, hextent⟩))
    · exact .inr (.inr (.inr (.inl ⟨(Prod.mk.inj h).1.symm, rfl⟩)))
  by_cases hstart : isAtomStart c = true
  · rw [munch_of_isAtomStart hstart] at h
    obtain ⟨rfl, -⟩ := Prod.mk.inj h
    exact .inr (.inr (.inr (.inr ⟨atomKind_mem _, hstart⟩)))
  · refine .inl ?_
    obtain rfl : (munch c rest).1 = kind := congrArg Prod.fst h
    unfold munch
    split
    case h_5 => split <;> decide
    case h_6 => exact absurd rfl hquote
    case h_7 => exact absurd rfl hslash
    case h_8 =>
      rw [if_neg hstart]
      decide
    all_goals decide

/-! ### Atoms at a boundary -/

/-- An atom is one token at a boundary. -/
theorem takes_atom {c : Char} {cs rest : List Char} (hc : isAtomStart c = true)
    (hcs : ∀ d ∈ cs, isAtomChar d = true) (hrest : AtBoundary rest) :
    Takes (atomKind (c :: cs)) (c :: cs) rest := by
  have hrun : (cs ++ rest).takeWhile isAtomChar = cs :=
    takeWhile_eq_of_atBoundary (fun _ h ↦ isAtomChar_of_boundary h) hcs hrest
  refine ⟨isSeparator_of_isAtomStart hc, ne_of_isAtomStart hc (by simp [delimiters]), ?_⟩
  rw [munch_of_isAtomStart hc, hrun]

/-- A dot is one token in front of a space. -/
theorem takes_dot (rest : List Char) : Takes .dot ['.'] (' ' :: rest) :=
  takes_atom (by decide) nofun (atBoundary_space rest)

theorem isAtomStart_of_munch_symbol {c : Char} {rest : List Char} {n : Nat}
    (h : munch c rest = (.symbol, n)) (hslash : c ≠ '/') : isAtomStart c = true := by
  simpa [markKinds, stringKinds, atomKinds, hslash] using munch_eq_cases h

/-- A symbol of a text is the same symbol at any boundary, unless it begins with a slash. -/
theorem takes_symbol_of_munch {c : Char} {from_ rest : List Char} {n : Nat}
    (h : munch c from_ = (.symbol, n)) (hslash : c ≠ '/') (hrest : AtBoundary rest) :
    Takes .symbol (c :: from_.take n) rest := by
  have hc : isAtomStart c = true := isAtomStart_of_munch_symbol h hslash
  rw [munch_of_isAtomStart hc] at h
  obtain ⟨hkind, rfl⟩ := Prod.mk.inj h
  -- The lexer took the whole run, so the token is a run of its own.
  rw [take_length_takeWhile, ← hkind]
  exact takes_atom hc (fun d hd ↦ List.all_eq_true.mp List.all_takeWhile d hd) hrest

/-! ### Regular expressions -/

theorem isAlpha_of_boundary {c : Char} (h : isSeparator c = true ∨ c = ')') :
    c.isAlpha = false :=
  eq_false_of_boundary (by decide) h

/-- A text is the body of a regular expression, a slash, flags, and more that does not belong to it.
With anything at a boundary in the place of what is more, it ends at the same place `stop`. -/
def Closes (n : Nat) (escaped : Bool) (stop : Nat) (cs : List Char) : Prop :=
  ∃ body flags more, cs = body ++ '/' :: (flags ++ more) ∧ (∀ c ∈ flags, c.isAlpha = true) ∧
    stop = n + (body ++ '/' :: flags).length ∧
    ∀ rest, AtBoundary rest →
      closingSlash? n escaped (body ++ '/' :: (flags ++ rest)) = some stop

/-- A slash that nothing escapes is the last one. -/
theorem closes_slash {n : Nat} {escaped : Bool}
    (hslash : ∀ rest, closingSlash? n escaped ('/' :: rest) =
      some (n + 1 + (rest.takeWhile Char.isAlpha).length)) (rest : List Char) :
    Closes n escaped (n + 1 + (rest.takeWhile Char.isAlpha).length) ('/' :: rest) := by
  have hall : ∀ c ∈ rest.takeWhile Char.isAlpha, c.isAlpha = true :=
    List.all_eq_true.mp List.all_takeWhile
  refine ⟨[], rest.takeWhile Char.isAlpha, rest.dropWhile Char.isAlpha, ?_, hall, ?_, ?_⟩
  · rw [List.takeWhile_append_dropWhile, List.nil_append]
  · rw [List.nil_append, List.length_cons]
    omega
  · intro after hafter
    rw [List.nil_append, hslash,
      takeWhile_eq_of_atBoundary (fun _ h ↦ isAlpha_of_boundary h) hall hafter]

/-- One more character of the body. -/
theorem Closes.cons {n stop : Nat} {escaped later : Bool} {c : Char} {cs : List Char}
    (h : Closes (n + 1) later stop cs)
    (hstep : ∀ rest, closingSlash? n escaped (c :: rest) = closingSlash? (n + 1) later rest) :
    Closes n escaped stop (c :: cs) := by
  obtain ⟨body, flags, more, rfl, hflags, hstop, hagain⟩ := h
  refine ⟨c :: body, flags, more, rfl, hflags, ?_, fun rest hrest ↦ ?_⟩
  · rw [hstop, List.cons_append, List.length_cons]
    omega
  · rw [List.cons_append, hstep]
    exact hagain rest hrest

theorem closes_of_closingSlash? {n stop : Nat} {escaped : Bool} {cs : List Char}
    (h : closingSlash? n escaped cs = some stop) : Closes n escaped stop cs := by
  induction n, escaped, cs using closingSlash?.induct with
  | case1 n escaped => cases h
  | case2 n escaped c rest hbreak =>
    rw [closingSlash?, if_pos hbreak] at h
    cases h
  | case3 n c rest hbreak ih =>
    -- An escaped character is part of the body, whichever it is.
    have hstep (rest : List Char) :
        closingSlash? n true (c :: rest) = closingSlash? (n + 1) false rest := by
      rw [closingSlash?, if_neg hbreak, if_pos rfl]
    rw [hstep] at h
    exact (ih h).cons hstep
  | case4 n escaped rest hescaped hbreak ih =>
    have hstep (rest : List Char) :
        closingSlash? n escaped ('\\' :: rest) = closingSlash? (n + 1) true rest := by
      rw [closingSlash?, if_neg hbreak, if_neg hescaped, if_pos rfl]
    rw [hstep] at h
    exact (ih h).cons hstep
  | case5 n escaped rest hescaped hbreak hbackslash =>
    have hslash (rest : List Char) : closingSlash? n escaped ('/' :: rest) =
        some (n + 1 + (rest.takeWhile Char.isAlpha).length) := by
      rw [closingSlash?, if_neg hbreak, if_neg hescaped, if_neg hbackslash, if_pos rfl]
    obtain rfl := Option.some.inj ((hslash rest).symm.trans h)
    exact closes_slash hslash rest
  | case6 n escaped c rest hbreak hescaped hbackslash hslash ih =>
    have hstep (rest : List Char) :
        closingSlash? n escaped (c :: rest) = closingSlash? (n + 1) false rest := by
      rw [closingSlash?, if_neg hbreak, if_neg hescaped, if_neg hbackslash, if_neg hslash]
    rw [hstep] at h
    exact (ih h).cons hstep

theorem regexExtent?_of_munch_regex {c : Char} {rest : List Char} {n : Nat}
    (h : munch c rest = (.regex, n)) : c = '/' ∧ regexExtent? rest = some n := by
  simpa [markKinds, stringKinds, atomKinds] using munch_eq_cases h

theorem munch_of_regexExtent? {rest : List Char} {n : Nat} (h : regexExtent? rest = some n) :
    munch '/' rest = (.regex, n) := by
  unfold munch
  simp only [h]

/-- What begins a regular expression is told from its first character. -/
theorem regexExtent?_cons {c : Char} (h : (Unicode.isBlank c || c == '/' || c == ')') = false)
    (rest : List Char) : regexExtent? (c :: rest) = closingSlash? 0 false (c :: rest) := by
  rw [regexExtent?, if_neg (by rw [h]; exact Bool.false_ne_true)]

/-- A regular expression of a text is its body and its flags, and the same one at any boundary. -/
theorem takes_regex_of_munch {c : Char} {from_ : List Char} {n : Nat}
    (h : munch c from_ = (.regex, n)) :
    ∃ body flags, c :: from_.take n = '/' :: (body ++ '/' :: flags) ∧ '/' ∉ flags ∧
      ∀ rest, AtBoundary rest → Takes .regex ('/' :: (body ++ '/' :: flags)) rest := by
  obtain ⟨rfl, hextent⟩ := regexExtent?_of_munch_regex h
  cases from_ with
  | nil => cases hextent
  | cons d from_ =>
    by_cases hd : (Unicode.isBlank d || d == '/' || d == ')') = true
    · rw [regexExtent?, if_pos hd] at hextent
      cases hextent
    · have hd : (Unicode.isBlank d || d == '/' || d == ')') = false := Bool.eq_false_iff.mpr hd
      rw [regexExtent?_cons hd] at hextent
      obtain ⟨body, flags, more, hfrom, hflags, rfl, hagain⟩ := closes_of_closingSlash? hextent
      have hcut : d :: from_ = (body ++ '/' :: flags) ++ more := by
        rw [hfrom, List.append_assoc, List.cons_append]
      refine ⟨body, flags, ?_, ?_, fun rest hrest ↦ ⟨rfl, by decide, ?_⟩⟩
      · rw [hcut, Nat.zero_add, List.take_left]
      · intro hslash
        exact absurd (hflags '/' hslash) (by decide)
      · -- The body is not empty, so the first character is the one that was there before.
        have hextent : regexExtent? ((body ++ '/' :: flags) ++ rest) =
            some (body ++ '/' :: flags).length := by
          cases body with
          | nil =>
            obtain ⟨rfl, -⟩ := List.cons.inj hfrom
            simp at hd
          | cons e body =>
            obtain ⟨rfl, -⟩ := List.cons.inj hfrom
            have hagain := hagain rest hrest
            rw [Nat.zero_add] at hagain
            rw [List.append_assoc, List.cons_append, List.cons_append, regexExtent?_cons hd]
            exact hagain
        exact munch_of_regexExtent? hextent

end Lexer

end MiniLisp
