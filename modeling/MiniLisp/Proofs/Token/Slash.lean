import MiniLisp.Proofs.Token.Extent

/-!
# Symbols that begin with a slash

Whether a slash begins a symbol or a regular expression is not decided by the symbol alone. The
lexer looks for a second slash in the rest of the line, and there it does not matter to which token
that slash belongs. So a symbol that begins with a slash is only the same symbol elsewhere if no
slash follows it (`takes_slash_symbol`), and otherwise it becomes the beginning of a regular
expression (`exists_regex_of_slash`). A symbol is safe if it is a slash alone or begins with two
(`beginsRegex`).

Texts without backslashes and line breaks are enough here, as the names of symbols have neither
(`IsPlain`).
-/

namespace MiniLisp.Lexer

/-! ### Plain texts -/

/-- The text has no backslash and no line break. -/
def IsPlain (cs : List Char) : Prop := ∀ c ∈ cs, c ≠ '\\' ∧ isLineBreak c = false

theorem IsPlain.append {cs ds : List Char} (hcs : IsPlain cs) (hds : IsPlain ds) :
    IsPlain (cs ++ ds) :=
  List.forall_mem_append.mpr ⟨hcs, hds⟩

/-- A class of characters to which the backslash and the line breaks do not belong. -/
theorem isPlain_of_all {p : Char → Bool} (hbackslash : p '\\' = false) (hfeed : p '\n' = false)
    (hreturn : p '\r' = false) {cs : List Char} (h : ∀ c ∈ cs, p c = true) : IsPlain cs := by
  intro c hc
  have hne {d : Char} (hd : p d = false) : c ≠ d := by
    rintro rfl
    exact Bool.false_ne_true (hd.symm.trans (h c hc))
  refine ⟨hne hbackslash, ?_⟩
  simp [isLineBreak, hne hfeed, hne hreturn]

/-- In a plain text any slash closes a regular expression. -/
theorem isSome_closingSlash? {cs : List Char} (hcs : IsPlain cs) (hslash : '/' ∈ cs) (n : Nat)
    (more : List Char) : (closingSlash? n false (cs ++ more)).isSome = true := by
  induction cs generalizing n with
  | nil => exact absurd hslash List.not_mem_nil
  | cons c cs ih =>
    obtain ⟨⟨hbackslash, hbreak⟩, hrest⟩ := List.forall_mem_cons.mp hcs
    rw [List.cons_append, closingSlash?, hbreak, if_neg Bool.false_ne_true,
      if_neg Bool.false_ne_true, if_neg hbackslash]
    split
    · rfl
    · next hc => exact ih hrest ((List.mem_cons.mp hslash).resolve_left (Ne.symm hc)) (n + 1)

/-- Nothing else does. -/
theorem closingSlash?_eq_none {cs : List Char} (hcs : IsPlain cs) (hslash : '/' ∉ cs) (n : Nat) :
    closingSlash? n false cs = none := by
  induction cs generalizing n with
  | nil => rfl
  | cons c cs ih =>
    obtain ⟨⟨hbackslash, hbreak⟩, hrest⟩ := List.forall_mem_cons.mp hcs
    have hc : c ≠ '/' := fun hc ↦ hslash (hc ▸ List.mem_cons_self)
    rw [closingSlash?, hbreak, if_neg Bool.false_ne_true, if_neg Bool.false_ne_true,
      if_neg hbackslash, if_neg hc]
    exact ih hrest (fun h ↦ hslash (List.mem_cons_of_mem c h)) (n + 1)

/-! ### Characters of symbols -/

theorem isSlashSymbolChar_of_boundary {c : Char} (h : isSeparator c = true ∨ c = ')') :
    isSlashSymbolChar c = false :=
  eq_false_of_boundary (by decide) h

theorem toNat_of_isAlphanum {c : Char} (h : c.isAlphanum = true) :
    48 ≤ c.toNat ∧ c.toNat ≤ 122 := by
  have hclasses : ((c.isUpper || c.isLower) || c.isDigit) = true := h
  rw [Bool.or_eq_true, Bool.or_eq_true] at hclasses
  rcases hclasses with (hupper | hlower) | hdigit
  · have hcode : 65 ≤ c.toNat ∧ c.toNat ≤ 90 := of_decide_eq_true hupper
    omega
  · obtain ⟨hfirst, hlast⟩ := Bool.and_eq_true_iff.mp hlower
    have hcode : 97 ≤ c.toNat ∧ c.toNat ≤ 122 := ⟨of_decide_eq_true hfirst, of_decide_eq_true hlast⟩
    omega
  · obtain ⟨hfirst, hlast⟩ := Bool.and_eq_true_iff.mp hdigit
    exact ⟨of_decide_eq_true hfirst, Nat.le_trans (of_decide_eq_true hlast) (by decide)⟩

theorem isBlank_of_isAlphanum {c : Char} (h : c.isAlphanum = true) :
    Unicode.isBlank c = false := by
  have hcode := toNat_of_isAlphanum h
  have hranges : ∀ r ∈ Unicode.blankRanges, r.2 < 48 ∨ 122 < r.1 := by decide
  rw [Bool.eq_false_iff]
  intro hblank
  obtain ⟨r, hr, hle⟩ := Unicode.Ranges.contains_iff.mp hblank
  have hr := hranges r hr
  omega

/-- A symbol goes on with no blank character. -/
theorem isBlank_of_isSlashSymbolChar {c : Char} (h : isSlashSymbolChar c = true) :
    Unicode.isBlank c = false := by
  unfold isSlashSymbolChar isPlainSymbolChar at h
  simp only [Bool.or_eq_true, Bool.and_eq_true, Bool.not_eq_true'] at h
  rcases h with (halphanum | hpunctuation) | ⟨-, hblank⟩
  · exact isBlank_of_isAlphanum halphanum
  · have hall : (symbolPunctuation.all fun c ↦ Unicode.isBlank c == false) = true := by decide
    exact beq_iff_eq.mp (List.all_eq_true.mp hall c (List.contains_iff_mem.mp hpunctuation))
  · exact hblank

theorem isPlain_atom {cs : List Char} (h : ∀ c ∈ cs, isAtomChar c = true) : IsPlain cs :=
  isPlain_of_all (by decide) (by decide) (by decide) h

theorem isPlain_slash {cs : List Char} (h : ∀ c ∈ cs, isSlashSymbolChar c = true) : IsPlain cs :=
  isPlain_of_all (by decide) (by decide) (by decide) h

/-! ### A slash in front -/

/-- A slash and a character other than a slash begin the text. -/
def beginsRegex : List Char → Bool
  | '/' :: c :: _ => c != '/'
  | _ => false

theorem eq_slash_of_beginsRegex {c : Char} {cs : List Char} (h : beginsRegex (c :: cs) = true) :
    c = '/' := by
  unfold beginsRegex at h
  split at h
  · next heq => exact (List.cons.inj heq).1
  · cases h

/-- Behind the first slash of a symbol that does not begin with two, the lexer looks for a slash
that closes a regular expression. -/
theorem regexExtent?_slash_symbol {cs : List Char} (hcs : ∀ c ∈ cs, isSlashSymbolChar c = true)
    (hbegins : beginsRegex ('/' :: cs) = true) (rest : List Char) :
    regexExtent? (cs ++ rest) = closingSlash? 0 false (cs ++ rest) := by
  rcases cs with - | ⟨c, cs⟩
  · cases hbegins
  · have hc : isSlashSymbolChar c = true := hcs c List.mem_cons_self
    have hslash : (c == '/') = false := by simpa [beginsRegex] using hbegins
    have hbracket : (c == ')') = false := by
      rw [beq_eq_false_iff_ne]
      rintro rfl
      cases hc
    refine regexExtent?_cons ?_ (cs ++ rest)
    rw [isBlank_of_isSlashSymbolChar hc, hslash, hbracket]
    rfl

/-- What the lexer takes for a symbol behind a slash. -/
theorem slash_symbol_of_munch {from_ : List Char} {n : Nat} (h : munch '/' from_ = (.symbol, n)) :
    (∀ c ∈ from_.take n, isSlashSymbolChar c = true) ∧
      (beginsRegex ('/' :: from_.take n) = true → '/' ∉ from_.take n) := by
  rw [munch_slash] at h
  split at h
  · cases h
  · next hnone =>
    obtain rfl := (Prod.mk.inj h).2
    have hall : ∀ c ∈ from_.takeWhile isSlashSymbolChar, isSlashSymbolChar c = true :=
      List.all_eq_true.mp List.all_takeWhile
    rw [take_length_takeWhile]
    refine ⟨hall, fun hbegins hslash ↦ ?_⟩
    -- A slash in the symbol would have closed a regular expression.
    have hextent := regexExtent?_slash_symbol hall hbegins (from_.dropWhile isSlashSymbolChar)
    have hsome := isSome_closingSlash? (isPlain_slash hall) hslash 0
      (from_.dropWhile isSlashSymbolChar)
    rw [← hextent, List.takeWhile_append_dropWhile, hnone] at hsome
    cases hsome

/-- A symbol that begins with a slash is one token at a boundary, if it cannot begin a regular
expression or no slash follows on the line. -/
theorem takes_slash_symbol {cs rest : List Char} (hcs : ∀ c ∈ cs, isSlashSymbolChar c = true)
    (hrest : AtBoundary rest) (hplain : IsPlain rest)
    (hclear : beginsRegex ('/' :: cs) = true → '/' ∉ cs ++ rest) :
    Takes .symbol ('/' :: cs) rest := by
  have hnone : regexExtent? (cs ++ rest) = none := by
    by_cases hbegins : beginsRegex ('/' :: cs) = true
    · rw [regexExtent?_slash_symbol hcs hbegins]
      exact closingSlash?_eq_none ((isPlain_slash hcs).append hplain) (hclear hbegins) 0
    · rcases cs with - | ⟨c, cs⟩
      · rcases rest with - | ⟨d, rest⟩
        · rfl
        · have hd : (Unicode.isBlank d || d == '/' || d == ')') = true := by
            have hall : (boundaryChars.all fun d ↦ Unicode.isBlank d || d == '/' || d == ')') =
              true := by decide
            exact List.all_eq_true.mp hall d (mem_boundaryChars (hrest d rfl))
          rw [List.nil_append, regexExtent?, if_pos hd]
      · obtain rfl : c = '/' := by simpa [beginsRegex] using hbegins
        rw [List.cons_append, regexExtent?, if_pos (by decide)]
  have hrun : (cs ++ rest).takeWhile isSlashSymbolChar = cs :=
    takeWhile_eq_of_atBoundary (fun _ h ↦ isSlashSymbolChar_of_boundary h) hcs hrest
  refine ⟨rfl, by decide, ?_⟩
  rw [munch_slash, hnone, hrun]

/-- In front of a slash on the line it begins a regular expression. -/
theorem exists_regex_of_slash {cs rest : List Char} (hcs : ∀ c ∈ cs, isSlashSymbolChar c = true)
    (hplain : IsPlain rest) (hbegins : beginsRegex ('/' :: cs) = true) (hslash : '/' ∈ rest)
    (offset : Nat) : ∃ t ∈ tokensFrom offset ('/' :: (cs ++ rest)), t.kind = .regex := by
  have hsome : (regexExtent? (cs ++ rest)).isSome = true := by
    rw [regexExtent?_slash_symbol hcs hbegins, ← List.append_nil (cs ++ rest)]
    exact isSome_closingSlash? ((isPlain_slash hcs).append hplain)
      (List.mem_append_right cs hslash) 0 []
  obtain ⟨n, hn⟩ := Option.isSome_iff_exists.mp hsome
  rw [tokensFrom, if_neg (by decide), if_neg (by decide), munch_of_regexExtent? hn]
  exact ⟨_, List.mem_cons_self, rfl⟩

/-! ### Symbols of any kind -/

section

variable {c : Char} {from_ : List Char} {n : Nat} (h : munch c from_ = (.symbol, n))
include h

/-- No symbol has a backslash or a line break in it. -/
theorem isPlain_of_munch_symbol : IsPlain (c :: from_.take n) := by
  by_cases hc : c = '/'
  · subst hc
    exact isPlain_slash (List.forall_mem_cons.mpr ⟨by decide, (slash_symbol_of_munch h).1⟩)
  · have hstart : isAtomStart c = true := isAtomStart_of_munch_symbol h hc
    rw [munch_of_isAtomStart hstart] at h
    obtain ⟨-, rfl⟩ := Prod.mk.inj h
    rw [take_length_takeWhile]
    exact isPlain_atom (List.forall_mem_cons.mpr
      ⟨(Bool.and_eq_true_iff.mp hstart).1, List.all_eq_true.mp List.all_takeWhile⟩)

/-- A symbol of a text is the same symbol at any boundary, if it cannot begin a regular expression
or no slash follows on the line. -/
theorem takes_symbol_of_clear {rest : List Char} (hrest : AtBoundary rest) (hplain : IsPlain rest)
    (hclear : beginsRegex (c :: from_.take n) = true → '/' ∉ rest) :
    Takes .symbol (c :: from_.take n) rest := by
  by_cases hc : c = '/'
  · subst hc
    obtain ⟨hall, hinside⟩ := slash_symbol_of_munch h
    refine takes_slash_symbol hall hrest hplain fun hbegins hslash ↦ ?_
    exact (List.mem_append.mp hslash).elim (hinside hbegins) (hclear hbegins)
  · exact takes_symbol_of_munch h hc hrest

/-- Otherwise there is a regular expression in its place. -/
theorem exists_regex_of_not_clear {rest : List Char} (hplain : IsPlain rest)
    (hbegins : beginsRegex (c :: from_.take n) = true) (hslash : '/' ∈ rest) (offset : Nat) :
    ∃ t ∈ tokensFrom offset (c :: from_.take n ++ rest), t.kind = .regex := by
  obtain rfl := eq_slash_of_beginsRegex hbegins
  exact exists_regex_of_slash (slash_symbol_of_munch h).1 hplain hbegins hslash offset

end

end MiniLisp.Lexer
