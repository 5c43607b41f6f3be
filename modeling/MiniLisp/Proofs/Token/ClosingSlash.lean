import MiniLisp.Proofs.Token.Extent

/-!
# Slashes that close a regular expression

The lexer looks for the slash that closes a regular expression with a single flag, which says
whether the last character was a backslash that escapes the next one. Said of the text and not of
the search, a character is escaped if an odd number of backslashes in a row stands in front of it
(`escapes`). The search finds the first slash on the line that is not escaped
(`closingSlash?_eq_some_iff`), and if there is any such slash then there is a first one
(`ClosingSlash.exists_first`).

What begins with a slash is decided with the whole rest of the line in sight. The text of the token
alone is enough to tell what was decided (`Takes.regex_iff`).
-/

namespace MiniLisp.Lexer

/-! ### Escaped characters -/

/-- The character behind the text is escaped: an odd number of backslashes in a row stands in front
of it. -/
def escapes (cs : List Char) : Bool := (cs.reverse.takeWhile (· == '\\')).length % 2 == 1

/-- A backslash escapes the next character unless it is escaped itself. -/
theorem escapes_concat (cs : List Char) (c : Char) :
    escapes (cs ++ [c]) = (c == '\\' && !escapes cs) := by
  rw [escapes, List.reverse_concat]
  by_cases hc : c = '\\'
  · subst hc
    rw [List.takeWhile_cons_of_pos (by decide), List.length_cons, escapes]
    rcases Nat.mod_two_eq_zero_or_one (cs.reverse.takeWhile (· == '\\')).length with h | h
    · simp [Nat.add_mod, h]
    · simp [Nat.add_mod, h]
  · rw [List.takeWhile_cons_of_neg (by simpa using hc), beq_false_of_ne hc]
    rfl

/-! ### The search -/

/-- Behind `body`, and on the same line, a slash stands in a text that is not escaped. What is in
front of the text counts for escapes. -/
structure ClosingSlash (before cs body after : List Char) : Prop where
  cut : cs = body ++ '/' :: after
  line : ∀ c ∈ body, isLineBreak c = false
  unescaped : escapes (before ++ body) = false

/-- And this slash is the first one. -/
structure FirstClosingSlash (before cs body after : List Char) : Prop
    extends ClosingSlash before cs body after where
  escaped : ∀ front back, body = front ++ '/' :: back → escapes (before ++ front) = true

variable {before cs body after : List Char} {c : Char}

/-- A character that is no closing slash itself belongs to the body. -/
theorem ClosingSlash.of_cons (h : ClosingSlash before (c :: cs) body after)
    (hc : ¬ (c = '/' ∧ escapes before = false)) :
    isLineBreak c = false ∧
      ∃ body', body = c :: body' ∧ ClosingSlash (before ++ [c]) cs body' after := by
  obtain ⟨hcut, hline, hescape⟩ := h
  rcases body with - | ⟨d, body⟩
  · rw [List.append_nil] at hescape
    exact absurd ⟨(List.cons.inj hcut).1, hescape⟩ hc
  · rw [List.cons_append] at hcut
    obtain ⟨rfl, htail⟩ := List.cons.inj hcut
    obtain ⟨hbreak, hline⟩ := List.forall_mem_cons.mp hline
    exact ⟨hbreak, body, rfl, htail, hline, by rwa [List.append_assoc]⟩

theorem ClosingSlash.cons (h : ClosingSlash (before ++ [c]) cs body after)
    (hc : isLineBreak c = false) : ClosingSlash before (c :: cs) (c :: body) after where
  cut := congrArg (c :: ·) h.cut
  line := List.forall_mem_cons.mpr ⟨hc, h.line⟩
  unescaped := by
    have hescape := h.unescaped
    rwa [List.append_assoc] at hescape

theorem FirstClosingSlash.cons (h : FirstClosingSlash (before ++ [c]) cs body after)
    (hbreak : isLineBreak c = false) (hc : ¬ (c = '/' ∧ escapes before = false)) :
    FirstClosingSlash before (c :: cs) (c :: body) after where
  toClosingSlash := h.toClosingSlash.cons hbreak
  escaped := by
    intro front back hcut
    rcases front with - | ⟨d, front⟩
    · have hslash : c = '/' := (List.cons.inj hcut).1
      rw [List.append_nil]
      exact Bool.of_not_eq_false fun hescape ↦ hc ⟨hslash, hescape⟩
    · rw [List.cons_append] at hcut
      obtain ⟨rfl, htail⟩ := List.cons.inj hcut
      have hescape := h.escaped front back htail
      rwa [List.append_assoc] at hescape

theorem FirstClosingSlash.of_cons (h : FirstClosingSlash before (c :: cs) body after)
    (hc : ¬ (c = '/' ∧ escapes before = false)) :
    ∃ body', body = c :: body' ∧ FirstClosingSlash (before ++ [c]) cs body' after := by
  obtain ⟨-, body', rfl, hrest⟩ := h.toClosingSlash.of_cons hc
  refine ⟨body', rfl, hrest, fun front back hcut ↦ ?_⟩
  rw [List.append_assoc]
  exact h.escaped (c :: front) back (congrArg (c :: ·) hcut)

/-- A slash that is not escaped is the first closing slash of the text it begins. -/
theorem firstClosingSlash_slash (h : escapes before = false) (cs : List Char) :
    FirstClosingSlash before ('/' :: cs) [] cs where
  cut := rfl
  line := nofun
  unescaped := by rwa [List.append_nil]
  escaped := by
    intro front back hcut
    simp at hcut

/-- And there is no other. -/
theorem FirstClosingSlash.of_slash (h : FirstClosingSlash before ('/' :: cs) body after)
    (hescape : escapes before = false) : body = [] ∧ after = cs := by
  have hcut := h.cut
  rcases body with - | ⟨d, body⟩
  · exact ⟨rfl, (List.cons.inj hcut).2.symm⟩
  · obtain rfl : '/' = d := (List.cons.inj hcut).1
    have hescaped := h.escaped [] body rfl
    rw [List.append_nil, hescape] at hescaped
    cases hescaped

/-- If a slash closes the line then there is a first one. -/
theorem ClosingSlash.exists_first (h : ClosingSlash before cs body after) :
    ∃ body after, FirstClosingSlash before cs body after := by
  induction cs generalizing before body with
  | nil =>
    have hcut := h.cut
    simp at hcut
  | cons c cs ih =>
    by_cases hc : c = '/' ∧ escapes before = false
    · obtain ⟨rfl, hescape⟩ := hc
      exact ⟨[], cs, firstClosingSlash_slash hescape cs⟩
    · obtain ⟨hbreak, body', -, hrest⟩ := h.of_cons hc
      obtain ⟨first, more, hfirst⟩ := ih hrest
      exact ⟨c :: first, more, hfirst.cons hbreak hc⟩

/-- One character of the search. -/
theorem closingSlash?_cons (n : Nat) (before : List Char) (c : Char) (cs : List Char) :
    closingSlash? n (escapes before) (c :: cs) =
      if isLineBreak c = true then none
      else if c = '/' ∧ escapes before = false then
        some (n + 1 + (cs.takeWhile Char.isAlpha).length)
      else closingSlash? (n + 1) (escapes (before ++ [c])) cs := by
  rw [closingSlash?, escapes_concat]
  split
  · rfl
  cases escapes before with
  | true => simp
  | false =>
    by_cases hbackslash : c = '\\'
    · subst hbackslash
      simp
    · by_cases hslash : c = '/'
      · simp [hslash]
      · simp [hbackslash, hslash, beq_false_of_ne hbackslash]

/-- **The search finds the first slash on the line that is not escaped**, and takes the letters
behind it for flags. -/
theorem closingSlash?_eq_some_iff {n stop : Nat} :
    closingSlash? n (escapes before) cs = some stop ↔
      ∃ body after, FirstClosingSlash before cs body after ∧
        stop = n + (body ++ '/' :: after.takeWhile Char.isAlpha).length := by
  induction cs generalizing n before with
  | nil =>
    refine ⟨nofun, fun ⟨body, after, hfirst, _⟩ ↦ ?_⟩
    have hcut := hfirst.cut
    simp at hcut
  | cons c cs ih =>
    rw [closingSlash?_cons]
    split
    · next hbreak =>
      refine ⟨nofun, fun ⟨body, after, hfirst, _⟩ ↦ ?_⟩
      have hc : ¬ (c = '/' ∧ escapes before = false) := by
        rintro ⟨rfl, -⟩
        cases hbreak
      rw [(hfirst.toClosingSlash.of_cons hc).1] at hbreak
      cases hbreak
    split
    · next hbreak hc =>
      obtain ⟨rfl, hescape⟩ := hc
      simp only [Option.some.injEq]
      constructor
      · rintro rfl
        exact ⟨[], cs, firstClosingSlash_slash hescape cs, by simp; omega⟩
      · rintro ⟨body, after, hfirst, rfl⟩
        obtain ⟨rfl, rfl⟩ := hfirst.of_slash hescape
        simp
        omega
    · next hbreak hc =>
      rw [ih]
      constructor
      · rintro ⟨body, after, hfirst, rfl⟩
        refine ⟨c :: body, after, hfirst.cons (Bool.eq_false_iff.mpr hbreak) hc, ?_⟩
        simp only [List.cons_append, List.length_cons]
        omega
      · rintro ⟨body, after, hfirst, rfl⟩
        obtain ⟨body, rfl, hrest⟩ := hfirst.of_cons hc
        refine ⟨body, after, hrest, ?_⟩
        simp only [List.cons_append, List.length_cons]
        omega

/-! ### What a slash begins -/

/-- A character that may come right after the opening slash of a regular expression is next. -/
def OpensRegex (rest : List Char) : Prop :=
  ∃ c ∈ rest.head?, Unicode.isBlank c = false ∧ c ≠ '/' ∧ c ≠ ')'

/-- **A regular expression** has a first character that may open it and a slash that closes it. -/
theorem regexExtent?_eq_some_iff {rest : List Char} {stop : Nat} :
    regexExtent? rest = some stop ↔
      OpensRegex rest ∧ ∃ body after, FirstClosingSlash [] rest body after ∧
        stop = (body ++ '/' :: after.takeWhile Char.isAlpha).length := by
  rcases rest with - | ⟨c, cs⟩
  · exact ⟨nofun, fun ⟨⟨_, h, _⟩, _⟩ ↦ nomatch h⟩
  · have hopens : OpensRegex (c :: cs) ↔
        (Unicode.isBlank c || c == '/' || c == ')') = false := by
      simp [OpensRegex, and_assoc]
    rw [regexExtent?, hopens]
    split
    · next h => simp [h]
    · next h =>
      have hsearch := @closingSlash?_eq_some_iff [] (c :: cs) 0 stop
      simp only [Nat.zero_add] at hsearch
      rw [Bool.not_eq_true] at h
      rw [h, ← hsearch]
      exact ⟨fun hstop ↦ ⟨rfl, hstop⟩, And.right⟩

/-- What begins with a slash is a regular expression if it is opened and closed. -/
theorem isSome_regexExtent?_iff {rest : List Char} : (regexExtent? rest).isSome = true ↔
    OpensRegex rest ∧ ∃ body after, ClosingSlash [] rest body after := by
  simp only [Option.isSome_iff_exists, regexExtent?_eq_some_iff]
  constructor
  · rintro ⟨_, hopens, body, after, hfirst, -⟩
    exact ⟨hopens, body, after, hfirst.toClosingSlash⟩
  · rintro ⟨hopens, body, after, hclosing⟩
    obtain ⟨body, after, hfirst⟩ := hclosing.exists_first
    exact ⟨_, hopens, body, after, hfirst, rfl⟩

/-- The text as a whole is a regular expression. -/
def isRegexText : List Char → Bool
  | '/' :: rest => regexExtent? rest == some rest.length
  | _ => false

/-- **The text of a token tells whether it is a regular expression**, though the lexer decided it
with what follows the token in sight. -/
theorem Takes.regex_iff {kind : TokenKind} {text rest : List Char} (h : Takes kind text rest) :
    kind = .regex ↔ isRegexText text = true := by
  constructor
  · rintro rfl
    have halone : Takes .regex text [] := @Takes.of_append _ _ [] rest h nofun
    rcases text with - | ⟨c, cs⟩
    · exact halone.elim
    · obtain ⟨rfl, hextent⟩ := regexExtent?_of_munch_regex halone.2.2
      rw [List.append_nil] at hextent
      simp [isRegexText, hextent]
  · intro htext
    unfold isRegexText at htext
    split at htext
    · next cs =>
      have hextent : regexExtent? cs = some cs.length := by simpa using htext
      have hclosed : kind ≠ .openString := by
        rintro rfl
        exact absurd (start_of_munch_string false h.2.2) (by decide)
      have halone : Takes kind ('/' :: cs) [] := @Takes.of_append _ _ [] rest h hclosed
      have hmunch := halone.2.2
      rw [List.append_nil, munch_of_regexExtent? hextent] at hmunch
      exact (Prod.mk.inj hmunch).1.symm
    · cases htext

/-- **A slash begins** a regular expression, which goes up to the first slash on the line that is
not escaped and takes in the letters behind it, or a symbol, which is the longest run of its
characters. -/
theorem Takes.slash_cases {kind : TokenKind} {cs rest : List Char}
    (h : Takes kind ('/' :: cs) rest) :
    (kind = .regex ∧ OpensRegex (cs ++ rest) ∧ ∃ body after,
      FirstClosingSlash [] (cs ++ rest) body after ∧
        cs = body ++ '/' :: after.takeWhile Char.isAlpha) ∨
    (kind = .symbol ∧ cs = (cs ++ rest).takeWhile isSlashSymbolChar ∧
      ¬ (OpensRegex (cs ++ rest) ∧ ∃ body after, ClosingSlash [] (cs ++ rest) body after)) := by
  have hmunch := h.2.2
  rw [munch_slash] at hmunch
  split at hmunch
  · next stop hextent =>
    obtain ⟨rfl, rfl⟩ := Prod.mk.inj hmunch
    obtain ⟨hopens, body, after, hfirst, hlength⟩ := regexExtent?_eq_some_iff.mp hextent
    refine .inl ⟨rfl, hopens, body, after, hfirst, ?_⟩
    have hcut : cs ++ rest =
        (body ++ '/' :: after.takeWhile Char.isAlpha) ++ after.dropWhile Char.isAlpha := by
      rw [List.append_assoc, List.cons_append, List.takeWhile_append_dropWhile]
      exact hfirst.cut
    exact List.append_inj_left hcut hlength
  · next hnone =>
    obtain ⟨rfl, hlength⟩ := Prod.mk.inj hmunch
    refine .inr ⟨rfl, ?_, ?_⟩
    · have hrun := take_length_takeWhile isSlashSymbolChar (cs ++ rest)
      rwa [hlength, List.take_left] at hrun
    · rw [← isSome_regexExtent?_iff, hnone]
      exact Bool.false_ne_true

theorem slash_not_mem_flags (cs : List Char) : '/' ∉ cs.takeWhile Char.isAlpha := by
  intro hslash
  have halpha : '/'.isAlpha = true := List.all_eq_true.mp List.all_takeWhile '/' hslash
  cases halpha

/-- The last slash of a regular expression is the one that closes it. -/
theorem Takes.exists_slashes {text rest : List Char} (h : Takes .regex text rest) :
    ∃ body flags, text = '/' :: (body ++ '/' :: flags) ∧ '/' ∉ flags := by
  rcases text with - | ⟨c, cs⟩
  · exact h.elim
  · obtain ⟨rfl, -⟩ := regexExtent?_of_munch_regex h.2.2
    obtain ⟨-, -, body, after, -, rfl⟩ | ⟨hkind, -⟩ := h.slash_cases
    · exact ⟨body, _, rfl, slash_not_mem_flags after⟩
    · cases hkind

end MiniLisp.Lexer
