import MiniLisp.Proofs.Reading.RoundTrip
import MiniLisp.Proofs.Token.Slash

/-!
# Lists of symbols

The written form of a list of symbols is one line, so a symbol that begins with a slash reads as the
beginning of a regular expression if a slash follows in any later symbol of the list. Otherwise it
reads as itself. So the list is read back exactly if this happens for none of its symbols
(`read_symbols_iff`).

The lexer either finds all the symbols (`exists_tokens_symbolsRest`) or a regular expression
(`exists_regex_symbolsRest`), and data without regular expressions is never read from a text that
has one (`Derivation.kind_ne_regex`).
-/

namespace MiniLisp

open Lexer (AtBoundary IsPlain Takes beginsRegex tokensFrom)
open MiniLisp.Derivation (tokensOf valuesOf)

/-! ### Lists of symbols and their texts -/

/-- The node is the list of the symbols with the given names. -/
def Node.IsSymbols (n : Node) (names : List String) : Prop :=
  n.toList?.map (·.map Node.symbol?) = some (names.map some)

/-- The symbols can stand in one line: where a symbol could begin a regular expression, no later one
has a slash. -/
def SlashesApart (names : List String) : Prop :=
  names.Pairwise fun name later ↦ beginsRegex name.toList = true → '/' ∉ later.toList

instance (names : List String) : Decidable (SlashesApart names) :=
  inferInstanceAs (Decidable (List.Pairwise _ names))

/-- What is left of the written form of a list, up to its bracket. -/
def symbolsRest : List String → List Char
  | [] => [')']
  | name :: names => ' ' :: (name.toList ++ symbolsRest names)

theorem exists_nil_of_isSymbols {n : Node} (h : n.IsSymbols []) : ∃ span, n = .nil span := by
  obtain ⟨items, hitems, hnames⟩ := Option.map_eq_some_iff.mp h
  obtain rfl := List.map_eq_nil_iff.mp hnames
  exact Node.eq_nil_of_toList? hitems

theorem exists_pair_of_isSymbols {n : Node} {name : String} {names : List String}
    (h : n.IsSymbols (name :: names)) :
    ∃ l place cdr span, n = .pair l (.symbol name place) cdr span ∧ cdr.IsSymbols names := by
  obtain ⟨items, hitems, hnames⟩ := Option.map_eq_some_iff.mp h
  obtain ⟨first, rest, rfl, hfirst, hrest⟩ := List.map_eq_cons_iff.mp hnames
  obtain ⟨l, cdr, span, rfl, hcdr⟩ := Node.exists_pair_of_toList? hitems
  have hcdr : cdr.IsSymbols names := by rw [Node.IsSymbols, hcdr, Option.map_some, hrest]
  match first, hfirst with
  | .atom (.symbol name) place, rfl => exact ⟨l, place, cdr, span, rfl, hcdr⟩

theorem restText_of_isSymbols {n : Node} {names : List String} (h : n.IsSymbols names) :
    n.restText.toList = symbolsRest names := by
  induction names generalizing n with
  | nil =>
    obtain ⟨span, rfl⟩ := exists_nil_of_isSymbols h
    rw [Node.nil, Node.restText_nil]
    rfl
  | cons name names ih =>
    obtain ⟨l, place, cdr, span, rfl, hcdr⟩ := exists_pair_of_isSymbols h
    rw [Node.restText_pair, String.toList_append, String.toList_append, ih hcdr, Node.symbol,
      Node.text_atom]
    rfl

theorem atBoundary_symbolsRest (names : List String) : AtBoundary (symbolsRest names) := by
  cases names with
  | nil => exact Lexer.atBoundary_bracket []
  | cons name names => exact Lexer.atBoundary_space _

theorem isPlain_symbolsRest {names : List String} (hnames : ∀ name ∈ names, IsSymbolText name) :
    IsPlain (symbolsRest names) := by
  induction names with
  | nil => exact List.forall_mem_singleton.mpr ⟨by decide, rfl⟩
  | cons name names ih =>
    obtain ⟨one, hrest⟩ := List.forall_mem_cons.mp hnames
    obtain ⟨c, from_, n, hmunch, htext⟩ := one.exists_munch
    have hname : IsPlain name.toList := htext ▸ Lexer.isPlain_of_munch_symbol hmunch
    exact List.forall_mem_cons.mpr ⟨by decide, hname.append (ih hrest)⟩

theorem slash_mem_symbolsRest {names : List String} :
    '/' ∈ symbolsRest names ↔ ∃ name ∈ names, '/' ∈ name.toList := by
  induction names with
  | nil => simp [symbolsRest]
  | cons name names ih => simp [symbolsRest, ih]

/-- The tokens of a list are its bracket and those of the rest. -/
theorem exists_tokenize_of_isSymbols {n : Node} {names : List String} (h : n.IsSymbols names) :
    ∃ opening offset, opening.kind = .leftParen ∧
      tokenize n.text = opening :: tokensFrom offset (symbolsRest names) := by
  cases names with
  | nil =>
    obtain ⟨span, rfl⟩ := exists_nil_of_isSymbols h
    obtain ⟨opening, offset, hkind, -, htokens⟩ :=
      Lexer.exists_token_of_takes (Lexer.takes_leftParen [')']) 0
    rw [Node.nil, tokenize, Node.text_atom]
    exact ⟨opening, offset, hkind, htokens⟩
  | cons name names =>
    obtain ⟨l, place, cdr, span, rfl, hcdr⟩ := exists_pair_of_isSymbols h
    have htext : (Node.pair l (.symbol name place) cdr span).text.toList =
        ['('] ++ (name.toList ++ symbolsRest names) := by
      rw [Node.text_pair, String.toList_append, String.toList_append, restText_of_isSymbols hcdr,
        Node.symbol, Node.text_atom]
      rfl
    -- A space in the place of the bracket would be skipped.
    refine ⟨⟨.leftParen, "(", ⟨0, 1⟩⟩, 0, rfl, ?_⟩
    rw [tokenize, htext, Lexer.tokensFrom_of_takes (Lexer.takes_leftParen _), symbolsRest,
      Lexer.tokensFrom_space]
    rfl

/-! ### The tokens of a list of symbols -/

/-- Symbols that can stand in one line are the tokens of that line. -/
theorem exists_tokens_symbolsRest {names : List String} (hnames : ∀ name ∈ names, IsSymbolText name)
    (hapart : SlashesApart names) (offset : Nat) :
    ∃ ds closing, closing.kind = .rightParen ∧
      tokensFrom offset (symbolsRest names) = tokensOf ds ++ [closing] ∧
      (valuesOf ds).map Node.symbol? = names.map some := by
  induction names generalizing offset with
  | nil =>
    obtain ⟨closing, offset', hclosing, -, htokens⟩ :=
      Lexer.exists_token_of_takes (Lexer.takes_rightParen []) offset
    rw [Lexer.tokensFrom_nil] at htokens
    exact ⟨[], closing, hclosing, htokens, rfl⟩
  | cons name names ih =>
    obtain ⟨one, hrest⟩ := List.forall_mem_cons.mp hnames
    obtain ⟨hfirst, hapart⟩ := List.pairwise_cons.mp hapart
    obtain ⟨c, from_, n, hmunch, htext⟩ := one.exists_munch
    have hclear : beginsRegex (c :: from_.take n) = true → '/' ∉ symbolsRest names := by
      rw [← htext, slash_mem_symbolsRest]
      rintro hbegins ⟨later, hlater, hslash⟩
      exact hfirst later hlater hbegins hslash
    have htakes : Takes .symbol name.toList (symbolsRest names) := by
      rw [htext]
      exact Lexer.takes_symbol_of_clear hmunch (atBoundary_symbolsRest names)
        (isPlain_symbolsRest hrest) hclear
    obtain ⟨t, offset', hkind, htoken, htokens⟩ :=
      Lexer.exists_token_of_takes htakes (offset + 1)
    have hatom : Reader.atom t = .ok (.symbol name t.span) := by
      rw [Reader.atom, hkind, htoken, String.ofList_toList]
    obtain ⟨ds, closing, hclosing, hlater, hvalues⟩ := ih hrest hapart offset'
    refine ⟨.atom t _ hatom :: ds, closing, hclosing, ?_, congrArg (some name :: ·) hvalues⟩
    rw [symbolsRest, Lexer.tokensFrom_space, htokens, hlater]
    rfl

/-- Symbols that cannot stand in one line have a regular expression among the tokens of it. -/
theorem exists_regex_symbolsRest {names : List String} (hnames : ∀ name ∈ names, IsSymbolText name)
    (hapart : ¬ SlashesApart names) (offset : Nat) :
    ∃ t ∈ tokensFrom offset (symbolsRest names), t.kind = .regex := by
  induction names generalizing offset with
  | nil => exact absurd List.Pairwise.nil hapart
  | cons name names ih =>
    obtain ⟨one, hrest⟩ := List.forall_mem_cons.mp hnames
    obtain ⟨c, from_, n, hmunch, htext⟩ := one.exists_munch
    rw [symbolsRest, Lexer.tokensFrom_space, htext]
    by_cases hclash : beginsRegex (c :: from_.take n) = true ∧ '/' ∈ symbolsRest names
    · exact Lexer.exists_regex_of_not_clear hmunch (isPlain_symbolsRest hrest) hclash.1 hclash.2 _
    · -- This symbol is read, so the clash is between later ones.
      have hclear : beginsRegex (c :: from_.take n) = true → '/' ∉ symbolsRest names :=
        fun hbegins hslash ↦ hclash ⟨hbegins, hslash⟩
      have hlater : ¬ SlashesApart names := by
        intro hlater
        refine hapart (List.pairwise_cons.mpr ⟨fun later hmem hbegins hslash ↦ ?_, hlater⟩)
        exact hclear (htext ▸ hbegins) (slash_mem_symbolsRest.mpr ⟨later, hmem, hslash⟩)
      obtain ⟨t, offset', -, -, htokens⟩ := Lexer.exists_token_of_takes
        (Lexer.takes_symbol_of_clear hmunch (atBoundary_symbolsRest names)
          (isPlain_symbolsRest hrest) hclear) (offset + 1)
      obtain ⟨u, hu, hregex⟩ := ih hrest hlater offset'
      rw [htokens]
      exact ⟨u, List.mem_cons_of_mem t hu, hregex⟩

/-! ### Data without regular expressions -/

/-- The data is made of symbols, empty lists and pairs. -/
def Node.IsSymbolic : Node → Prop
  | .atom (.symbol _) _ => True
  | .atom .nil _ => True
  | .pair _ a d _ => a.IsSymbolic ∧ d.IsSymbolic
  | _ => False

theorem isSymbolic_of_isSymbols {n : Node} {names : List String} (h : n.IsSymbols names) :
    n.IsSymbolic := by
  induction names generalizing n with
  | nil =>
    obtain ⟨span, rfl⟩ := exists_nil_of_isSymbols h
    trivial
  | cons name names ih =>
    obtain ⟨l, place, cdr, span, rfl, hcdr⟩ := exists_pair_of_isSymbols h
    exact ⟨trivial, ih hcdr⟩

/-- The node is the same as some data made of symbols. -/
def Node.LikeSymbols (n : Node) : Prop := ∃ m : Node, m.IsSymbolic ∧ n.same m = true

/-- What a list that was read is made of is like symbols if the list is. -/
theorem likeSymbols_of_chain {stop : Nat} {items : List Node} {tail : Node}
    (h : (Node.chain stop items tail).LikeSymbols) :
    (∀ item ∈ items, item.LikeSymbols) ∧ tail.LikeSymbols := by
  induction items with
  | nil => exact ⟨nofun, h⟩
  | cons item items ih =>
    obtain ⟨m, hm, hsame⟩ := h
    rw [Node.chain_cons] at hsame
    cases m with
    | pair l a d span =>
      obtain ⟨hcar, hcdr⟩ := Bool.and_eq_true_iff.mp hsame
      obtain ⟨hitems, htail⟩ := ih ⟨d, hm.2, hcdr⟩
      exact ⟨List.forall_mem_cons.mpr ⟨⟨a, hm.1, hcar⟩, hitems⟩, htail⟩
    | _ => cases hsame

theorem likeSymbols_of_listWithTail {items : List Node} {tail : Node} {span : Span}
    (h : (Node.listWithTail items tail span).LikeSymbols) :
    (∀ item ∈ items, item.LikeSymbols) ∧ tail.LikeSymbols := by
  obtain ⟨m, hm, hsame⟩ := h
  rw [Node.listWithTail, Node.same_withSpan_left] at hsame
  exact likeSymbols_of_chain ⟨m, hm, hsame⟩

theorem Reader.kind_ne_regex_of_likeSymbols {t : Token} {n : Node} (h : atom t = .ok n)
    (hn : n.LikeSymbols) : t.kind ≠ .regex := by
  intro hkind
  obtain ⟨m, hm, hsame⟩ := hn
  rw [atom, hkind] at h
  dsimp only at h
  split at h
  · obtain rfl := Except.ok.inj h
    cases m with
    | atom a span =>
      cases a with
      | regex => exact hm
      | _ => cases hsame
    | _ => cases hsame
  · cases h

namespace Derivation

theorem mem_tokensOf {ds : List Derivation} {t : Token} :
    t ∈ tokensOf ds ↔ ∃ d ∈ ds, t ∈ d.tokens := by
  induction ds with
  | nil => simp [tokensOf]
  | cons d ds ih => simp [tokensOf, ih]

theorem value_mem_valuesOf {ds : List Derivation} {d : Derivation} (h : d ∈ ds) :
    d.value ∈ valuesOf ds := by
  induction ds with
  | nil => exact absurd h List.not_mem_nil
  | cons e ds ih =>
    rw [valuesOf]
    exact List.mem_cons.mpr ((List.mem_cons.mp h).imp (congrArg value) ih)

/-- **No regular expression is read as anything else.** The tokens of a form that stands for data
made of symbols are no regular expressions. -/
theorem kind_ne_regex {d : Derivation} (h : d.value.LikeSymbols) :
    ∀ t ∈ d.tokens, t.kind ≠ .regex := by
  induction d with
  | atom token value reads =>
    rw [tokens, List.forall_mem_singleton]
    exact Reader.kind_ne_regex_of_likeSymbols reads h
  | sugar mark token form marks ih =>
    rw [tokens, List.forall_mem_cons]
    rw [value, Node.tagged, Node.ofList] at h
    have hform : form.value.LikeSymbols := (likeSymbols_of_listWithTail h).1 _ (by simp)
    exact ⟨ne_of_eq_of_ne marks (by cases mark <;> decide), ih hform⟩
  | list opening items closing opens closes ih =>
    rw [value] at h
    have hitems := (likeSymbols_of_listWithTail h).1
    rw [tokens, List.forall_mem_cons, List.forall_mem_append, List.forall_mem_singleton]
    refine ⟨ne_of_eq_of_ne opens (by decide), fun t ht ↦ ?_, ne_of_eq_of_ne closes (by decide)⟩
    obtain ⟨d, hd, ht⟩ := mem_tokensOf.mp ht
    exact ih d hd (hitems _ (value_mem_valuesOf hd)) t ht
  | dotted opening first items dot tail closing opens dots closes ihfirst ihitems ihtail =>
    rw [value] at h
    obtain ⟨hall, htail⟩ := likeSymbols_of_listWithTail h
    obtain ⟨hfirst, hitems⟩ := List.forall_mem_cons.mp hall
    rw [tokens, List.forall_mem_cons, List.forall_mem_append, List.forall_mem_append,
      List.forall_mem_cons, List.forall_mem_append, List.forall_mem_singleton]
    refine ⟨ne_of_eq_of_ne opens (by decide), ⟨ihfirst hfirst, fun t ht ↦ ?_⟩,
      ne_of_eq_of_ne dots (by decide), ihtail htail, ne_of_eq_of_ne closes (by decide)⟩
    obtain ⟨d, hd, ht⟩ := mem_tokensOf.mp ht
    exact ihitems d hd (hitems _ (value_mem_valuesOf hd)) t ht

end Derivation

/-! ### Reading back -/

/-- Lists of the symbols with the same names are the same. -/
theorem same_of_isSymbols {items : List Node} {names : List String}
    (hitems : items.map Node.symbol? = names.map some) {n : Node} (hn : n.IsSymbols names)
    (stop : Nat) : (Node.chain stop items (.nil (.at_ stop))).same n = true := by
  induction names generalizing items n with
  | nil =>
    obtain rfl := List.map_eq_nil_iff.mp hitems
    obtain ⟨span, rfl⟩ := exists_nil_of_isSymbols hn
    rfl
  | cons name names ih =>
    obtain ⟨first, rest, rfl, hfirst, hrest⟩ := List.map_eq_cons_iff.mp hitems
    obtain ⟨l, place, cdr, span, rfl, hcdr⟩ := exists_pair_of_isSymbols hn
    match first, hfirst with
    | .atom (.symbol name) _, rfl => exact Node.same_pair (beq_self_eq_true name) (ih hrest hcdr)

/-- **Lists of symbols print readably, slashes apart.** The written form of a list of symbols is
read as that list exactly if no symbol in it that could begin a regular expression is followed by
one that has a slash. -/
theorem read_symbols_iff {n : Node} {names : List String} (h : n.IsSymbols names)
    (hnames : ∀ name ∈ names, IsSymbolText name) :
    (∃ form, read n.text = .ok [form] ∧ form.same n = true) ↔ SlashesApart names := by
  obtain ⟨opening, offset, hopening, htokenize⟩ := exists_tokenize_of_isSymbols h
  constructor
  · rintro ⟨form, hread, hsame⟩
    by_contra hapart
    obtain ⟨ds, htokens, hvalues⟩ := Reader.exists_tokensOf_of_readTokens hread
    obtain ⟨t, ht, hregex⟩ := exists_regex_symbolsRest hnames hapart offset
    have hmem : t ∈ tokensOf ds := by
      rw [htokens, htokenize]
      exact List.mem_cons_of_mem opening ht
    obtain ⟨d, hd, ht⟩ := Derivation.mem_tokensOf.mp hmem
    have hvalue : d.value = form := by
      have hvalue := Derivation.value_mem_valuesOf hd
      rwa [hvalues, List.mem_singleton] at hvalue
    exact Derivation.kind_ne_regex ⟨n, isSymbolic_of_isSymbols h, hvalue ▸ hsame⟩ t ht hregex
  · intro hapart
    obtain ⟨ds, closing, hclosing, htokens, hvalues⟩ :=
      exists_tokens_symbolsRest hnames hapart offset
    let d : Derivation := .list opening ds closing hopening hclosing
    refine ⟨d.value, ?_, ?_⟩
    · have hread := Reader.readTokens_tokensOf [d]
      rw [Derivation.tokensOf_singleton, Derivation.valuesOf_singleton] at hread
      rw [read, htokenize, htokens, ← hread, Derivation.tokens]
    · rw [Derivation.value, Node.ofList, Node.listWithTail, Node.same_withSpan_left]
      exact same_of_isSymbols hvalues h _

/-- Slashes alone, in front, inside and at the end of symbols, all of them apart. -/
theorem read_symbols_division :
    let names := ["a/", "//", "/", "b/c", "/d", "e"]
    let n := Node.ofList (names.map (.symbol · .nowhere)) .nowhere
    n.IsSymbols names ∧ (∀ name ∈ names, IsSymbolText name) ∧ SlashesApart names ∧
      n.text = "(a/ // / b/c /d e)" ∧ ∃ form, read n.text = .ok [form] ∧ form.same n = true := by
  intro names n
  have hn : n.IsSymbols names := by rw [Node.IsSymbols, Node.toList?_ofList]; rfl
  have hnames : ∀ name ∈ names, IsSymbolText name := by
    have htakes : ∀ name ∈ names, Takes .symbol name.toList [] := by decide
    exact fun name hname ↦ Lexer.tokenize_of_takes (htakes name hname)
  have hapart : SlashesApart names := by decide
  exact ⟨hn, hnames, hapart, by decide, (read_symbols_iff hn hnames).mpr hapart⟩

/-- The slash in front of the first symbol and that at the end of the second one make a regular
expression. -/
theorem read_symbols_clash :
    let names := ["/a", "b/"]
    let n := Node.ofList (names.map (.symbol · .nowhere)) .nowhere
    n.IsSymbols names ∧ (∀ name ∈ names, IsSymbolText name) ∧ n.text = "(/a b/)" ∧
      ¬ ∃ form, read n.text = .ok [form] ∧ form.same n = true := by
  intro names n
  have hn : n.IsSymbols names := by rw [Node.IsSymbols, Node.toList?_ofList]; rfl
  have hnames : ∀ name ∈ names, IsSymbolText name := by
    have htakes : ∀ name ∈ names, Takes .symbol name.toList [] := by decide
    exact fun name hname ↦ Lexer.tokenize_of_takes (htakes name hname)
  have htext : n.text = "(/a b/)" := by decide
  refine ⟨hn, hnames, htext, ?_⟩
  have htokens : tokenize "(/a b/)" = [⟨.leftParen, "(", ⟨0, 1⟩⟩, ⟨.regex, "/a b/", ⟨1, 6⟩⟩,
      ⟨.rightParen, ")", ⟨6, 7⟩⟩] := by decide +kernel
  have hread : read "(/a b/)" = .ok [.ofList [.atom (.regex ⟨"a b", ""⟩) ⟨1, 6⟩] ⟨0, 7⟩] := by
    rw [read, htokens]
    rfl
  rintro ⟨form, hform, hsame⟩
  rw [htext, hread] at hform
  obtain rfl := (List.cons.inj (Except.ok.inj hform)).1
  cases hsame

end MiniLisp
