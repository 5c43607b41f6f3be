import MiniLisp.Data.Equality
import MiniLisp.Data.Printer
import MiniLisp.Proofs.Number.Decimal
import MiniLisp.Proofs.Reading.Grammar
import MiniLisp.Proofs.Token.StringBody

/-!
# Printing then reading

The written form of data is read back as the same data (`read_text`), for all data that has a form
of its own in the language (`Node.Readable`): not for procedures, macros and the missing result, nor
for symbols whose names are no symbols when they are read.

The proof goes through derivations. The tokens of a written form are those of one derivation, in
front of any boundary (`Reads`), and the tokens of what follows the first element of a list are
those of the elements that are left and of the end of the list (`ReadsRest`). The two are shown
together, by induction over the data. Each atom has to be one token, and after that the printer and
the grammar agree step by step: a pair in the second part of a pair continues the list, the empty
list closes it, and anything else is its tail.
-/

namespace MiniLisp

open Lexer (AtBoundary Takes tokensFrom)
open MiniLisp.Derivation (tokensOf valuesOf)

/-! ### Readable data -/

/-- The text is one symbol token. -/
def IsSymbolText (name : String) : Prop := ∃ span, tokenize name = [⟨.symbol, name, span⟩]

/-- Such a text is what the lexer takes somewhere in some text. -/
theorem IsSymbolText.exists_munch {name : String} (one : IsSymbolText name) :
    ∃ c from_ n, Lexer.munch c from_ = (.symbol, n) ∧ name.toList = c :: from_.take n := by
  obtain ⟨place, htokens⟩ := one
  have hmem : (⟨.symbol, name, place⟩ : Token) ∈ tokensFrom 0 name.toList := by
    show _ ∈ tokenize name
    rw [htokens]
    exact List.mem_singleton_self _
  obtain ⟨c, from_, n, hmunch, htext⟩ := Lexer.exists_munch_of_mem hmem
  exact ⟨c, from_, n, hmunch, by rw [show name = _ from htext, String.toList_ofList]⟩

/-- The literal was made by the reader, of a token of some text. -/
def RegexLiteral.IsRead (r : RegexLiteral) : Prop :=
  ∃ source, ∃ t ∈ tokenize source, ∃ span, Reader.atom t = .ok (.atom (.regex r) span)

/-- Data with a written form that stands for it. -/
inductive Node.Readable : Node → Prop
  | nil (span : Span) : Readable (.nil span)
  | boolean (b : Bool) (span : Span) : Readable (.boolean b span)
  | string (s : String) (span : Span) : Readable (.string s span)
  | number (n : Number) (span : Span) (exact : n.isExact = true) : Readable (.number n span)
  | symbol (name : String) (span : Span) (one : IsSymbolText name)
      (slash : name.toList.head? ≠ some '/') : Readable (.symbol name span)
  | regex (r : RegexLiteral) (span : Span) (made : r.IsRead) : Readable (.atom (.regex r) span)
  | pair (label : Option Label) (car cdr : Node) (span : Span) (first : Readable car)
      (second : Readable cdr) : Readable (.pair label car cdr span)

/-- Pairs of which the parts are the same are the same. -/
theorem Node.same_pair {l m : Option Label} {a b d e : Node} {s t : Span} (hcar : a.same b = true)
    (hcdr : d.same e = true) : (Node.pair l a d s).same (.pair m b e t) = true := by
  rw [same, hcar, hcdr]
  exact Bool.or_true _

/-! ### The end of a list -/

/-- How a list ends: at its bracket, or with a dot and a tail in front of it. -/
inductive Ending where
  | proper (closing : Token) (closes : closing.kind = .rightParen)
  | improper (dot : Token) (tail : Derivation) (closing : Token) (dots : dot.kind = .dot)
      (closes : closing.kind = .rightParen)

namespace Ending

def tokens : Ending → List Token
  | proper closing _ => [closing]
  | improper dot tail closing _ _ => dot :: (tail.tokens ++ [closing])

/-- What stands behind the last element of a list that ends at an offset. -/
def node (stop : Nat) : Ending → Node
  | proper _ _ => .nil (.at_ stop)
  | improper _ tail _ _ _ => tail.value

/-- The list with one element or more and an ending. -/
def close (opening : Token) (opens : opening.kind = .leftParen) (first : Derivation)
    (items : List Derivation) : Ending → Derivation
  | proper closing closes => .list opening (first :: items) closing opens closes
  | improper dot tail closing dots closes =>
    .dotted opening first items dot tail closing opens dots closes

variable (opening : Token) (opens : opening.kind = .leftParen) (first : Derivation)
  (items : List Derivation) (e : Ending)

theorem tokens_close : (e.close opening opens first items).tokens =
    opening :: (first.tokens ++ tokensOf items ++ e.tokens) := by
  cases e <;> simp only [close, Derivation.tokens, tokensOf, tokens]

theorem value_close : ∃ span : Span, (e.close opening opens first items).value =
    .listWithTail (first.value :: valuesOf items) (e.node span.stop) span := by
  cases e with
  | proper closing closes => exact ⟨_, by rw [close, Derivation.value, valuesOf]; rfl⟩
  | improper dot tail closing dots closes => exact ⟨_, by rw [close, Derivation.value]; rfl⟩

end Ending

/-! ### Texts of forms -/

/-- The text is one form that stands for a node, in front of any boundary. -/
def Reads (text : List Char) (n : Node) : Prop :=
  ∀ offset rest, AtBoundary rest → ∃ (d : Derivation) (offset' : Nat),
    tokensFrom offset (text ++ rest) = d.tokens ++ tokensFrom offset' rest ∧
      d.value.same n = true

/-- The text is the rest of a list, its bracket included: elements and an ending that stand for a
node. -/
def ReadsRest (text : List Char) (n : Node) : Prop :=
  ∀ offset rest, ∃ (ds : List Derivation) (e : Ending) (offset' : Nat),
    tokensFrom offset (text ++ rest) = tokensOf ds ++ e.tokens ++ tokensFrom offset' rest ∧
      ∀ stop, (Node.chain stop (valuesOf ds) (e.node stop)).same n = true

/-- A text that is one token at a boundary is a form if an atom can be made of the token. -/
theorem reads_of_takes {kind : TokenKind} {text : List Char} {n : Node}
    (htakes : ∀ rest, AtBoundary rest → Takes kind text rest)
    (hatom : ∀ t : Token, t.kind = kind → t.text = String.ofList text →
      ∃ value, Reader.atom t = .ok value ∧ value.same n = true) : Reads text n := by
  intro offset rest hrest
  obtain ⟨t, offset', hkind, htext, htokens⟩ :=
    Lexer.exists_token_of_takes (htakes rest hrest) offset
  obtain ⟨value, hvalue, hsame⟩ := hatom t hkind htext
  exact ⟨.atom t value hvalue, offset', htokens, hsame⟩

/-- The bracket alone closes a list. -/
theorem readsRest_nil (span : Span) : ReadsRest [')'] (.nil span) := by
  intro offset rest
  obtain ⟨closing, offset', hclosing, -, htokens⟩ :=
    Lexer.exists_token_of_takes (Lexer.takes_rightParen rest) offset
  exact ⟨[], .proper closing hclosing, offset', htokens, fun _ ↦ rfl⟩

/-- Data behind the dot is the tail. -/
theorem readsRest_tail {text : List Char} {n : Node} (h : Reads text n) :
    ReadsRest (' ' :: '.' :: ' ' :: (text ++ [')'])) n := by
  intro offset rest
  obtain ⟨dot, offset₁, hdot, -, hdots⟩ :=
    Lexer.exists_token_of_takes (Lexer.takes_dot (text ++ ([')'] ++ rest))) (offset + 1)
  -- The tail stands in front of the bracket, which is a boundary.
  obtain ⟨d, offset₂, htail, hsame⟩ := h (offset₁ + 1) ([')'] ++ rest)
    (Lexer.atBoundary_bracket rest)
  obtain ⟨closing, offset₃, hclosing, -, hcloses⟩ :=
    Lexer.exists_token_of_takes (Lexer.takes_rightParen rest) offset₂
  refine ⟨[], .improper dot d closing hdot hclosing, offset₃, ?_, fun _ ↦ hsame⟩
  show tokensFrom offset (' ' :: (['.'] ++ ' ' :: ((text ++ [')']) ++ rest))) = _
  rw [Lexer.tokensFrom_space, List.append_assoc, hdots, Lexer.tokensFrom_space, htail, hcloses]
  simp only [Ending.tokens, tokensOf, List.nil_append, List.cons_append, List.append_assoc]

/-- One more element of a list. -/
theorem readsRest_cons {text rest : List Char} {a b : Node} (ha : Reads text a)
    (hb : ReadsRest rest b) (hrest : ∀ more, AtBoundary (rest ++ more)) (label : Option Label)
    (span : Span) : ReadsRest (' ' :: (text ++ rest)) (.pair label a b span) := by
  intro offset more
  obtain ⟨d, offset₁, hfirst, hsame⟩ := ha (offset + 1) (rest ++ more) (hrest more)
  obtain ⟨ds, e, offset₂, htokens, hchain⟩ := hb offset₁ more
  refine ⟨d :: ds, e, offset₂, ?_, fun stop ↦ ?_⟩
  · rw [List.cons_append, Lexer.tokensFrom_space, List.append_assoc, hfirst, htokens, tokensOf]
    simp only [List.append_assoc]
  · exact Node.same_pair hsame (hchain stop)

/-- An element and the rest of its list are a list. -/
theorem reads_pair {text rest : List Char} {a b : Node} (ha : Reads text a)
    (hb : ReadsRest rest b) (hrest : ∀ more, AtBoundary (rest ++ more)) (label : Option Label)
    (span : Span) : Reads ('(' :: (text ++ rest)) (.pair label a b span) := by
  intro offset more _
  obtain ⟨opening, offset₁, hopening, -, hopens⟩ :=
    Lexer.exists_token_of_takes (Lexer.takes_leftParen (text ++ (rest ++ more))) offset
  obtain ⟨d, offset₂, hfirst, hsame⟩ := ha offset₁ (rest ++ more) (hrest more)
  obtain ⟨ds, e, offset₃, htokens, hchain⟩ := hb offset₂ more
  refine ⟨e.close opening hopening d ds, offset₃, ?_, ?_⟩
  · show tokensFrom offset (['('] ++ ((text ++ rest) ++ more)) = _
    rw [List.append_assoc, hopens, hfirst, htokens, Ending.tokens_close]
    simp only [List.append_assoc, List.cons_append]
  · obtain ⟨whole, hvalue⟩ := e.value_close opening hopening d ds
    rw [hvalue, Node.listWithTail, Node.same_withSpan_left]
    exact Node.same_pair hsame (hchain whole.stop)

/-- The empty list is a list without elements. -/
theorem reads_nil (span : Span) : Reads ['(', ')'] (.nil span) := by
  intro offset rest _
  obtain ⟨opening, offset₁, hopening, -, hopens⟩ :=
    Lexer.exists_token_of_takes (Lexer.takes_leftParen ([')'] ++ rest)) offset
  obtain ⟨closing, offset₂, hclosing, -, hcloses⟩ :=
    Lexer.exists_token_of_takes (Lexer.takes_rightParen rest) offset₁
  refine ⟨.list opening [] closing hopening hclosing, offset₂, ?_, rfl⟩
  show tokensFrom offset (['('] ++ ([')'] ++ rest)) = _
  rw [hopens, hcloses, Derivation.tokens, tokensOf]
  rfl

/-! ### Atoms -/

theorem reads_boolean (b : Bool) (span : Span) :
    Reads (Atom.boolean b).text.toList (.boolean b span) := by
  have htext : (Atom.boolean b).text.toList = ['#', if b then 't' else 'f'] := by
    cases b <;> rfl
  have hkind : Lexer.atomKind ['#', if b then 't' else 'f'] = .boolean := by
    cases b <;> rfl
  have hchar : ∀ c ∈ [if b then 't' else 'f'], Lexer.isAtomChar c = true := by
    rw [List.forall_mem_singleton]
    cases b <;> decide
  rw [htext]
  refine reads_of_takes (fun rest hrest ↦ Lexer.takes_atom (by decide) hchar hrest) ?_
  intro t ht htoken
  refine ⟨.boolean (t.text == "#t") t.span, ?_, ?_⟩
  · rw [Reader.atom, ht, hkind]
  · rw [htoken]
    cases b <;> rfl

theorem reads_number {n : Number} (exact : n.isExact = true) (span : Span) :
    Reads (Atom.number n).text.toList (.number n span) := by
  obtain ⟨i, hi⟩ := Option.isSome_iff_exists.mp exact
  have htext : (Atom.number n).text = toString i := by
    cases n with
    | integer v => cases hi; rfl
    | big v => cases hi; rfl
    | float x => cases hi
  obtain ⟨c, cs, hcs, hstart, hchars, hkind⟩ := Lexer.atomKind_toString i
  rw [htext, hcs]
  refine reads_of_takes (fun rest hrest ↦ Lexer.takes_atom hstart hchars hrest) ?_
  intro t ht htoken
  have hvalue : Number.ofLiteral? t.text = some (.ofInt i) := by
    rw [htoken, ← hcs, String.ofList_toList, Number.ofLiteral?_toString]
  refine ⟨.number (.ofInt i) t.span, ?_, ?_⟩
  · rw [Reader.atom, ht, hkind]
    simp only [hvalue]
  · show Number.same _ _ = true
    rw [Number.same, Number.compare?_of_exact (Number.toInt?_ofInt i) hi]
    simp

theorem reads_string (s : String) (span : Span) :
    Reads (Atom.string s).text.toList (.string s span) := by
  have htext : (Atom.string s).text.toList =
      '"' :: (Text.Quoted.encode s.toList ++ ['"']) := by
    simp [Atom.text, Text.Quoted.literal, String.toList_append]
  rw [htext]
  refine reads_of_takes (fun rest _ ↦ Lexer.takes_string s.toList rest) ?_
  intro t ht htoken
  have hbody : (t.text.toList.drop 1).dropLast = Text.Quoted.encode s.toList := by
    rw [htoken, String.toList_ofList, List.drop_one, List.tail_cons, List.dropLast_concat]
  refine ⟨.string s t.span, ?_, beq_self_eq_true s⟩
  rw [Reader.atom, ht]
  simp only [hbody, Text.Quoted.decode_encode, String.ofList_toList]

theorem reads_symbol {name : String} (one : IsSymbolText name)
    (slash : name.toList.head? ≠ some '/') (span : Span) :
    Reads (Atom.symbol name).text.toList (.symbol name span) := by
  obtain ⟨c, from_, n, hmunch, htext⟩ := one.exists_munch
  have hslash : c ≠ '/' := by
    rintro rfl
    exact slash (by rw [htext, List.head?_cons])
  show Reads name.toList _
  rw [htext]
  refine reads_of_takes (fun rest hrest ↦ Lexer.takes_symbol_of_munch hmunch hslash hrest) ?_
  intro t ht htoken
  refine ⟨.symbol t.text t.span, by rw [Reader.atom, ht], ?_⟩
  rw [htoken, ← htext, String.ofList_toList]
  exact beq_self_eq_true name

/-- The source of a literal is what stands between its slashes, and the flags hold none. -/
theorem splitRegex_eq {body flags : List Char} (hflags : '/' ∉ flags) :
    Reader.splitRegex ('/' :: (body ++ '/' :: flags)) = (body, flags) := by
  have hreverse : ('/' :: (body ++ '/' :: flags)).reverse =
      flags.reverse ++ '/' :: (body.reverse ++ ['/']) := by
    simp
  have hall : ∀ c ∈ flags.reverse, (c != '/') = true := by
    intro c hc
    rw [bne_iff_ne]
    rintro rfl
    exact hflags (List.mem_reverse.mp hc)
  have htake : (flags.reverse ++ '/' :: (body.reverse ++ ['/'])).takeWhile (· != '/') =
      flags.reverse := by
    rw [List.takeWhile_append_of_pos hall, List.takeWhile_cons_of_neg (by decide), List.append_nil]
  have hdrop : (flags.reverse ++ '/' :: (body.reverse ++ ['/'])).dropWhile (· != '/') =
      '/' :: (body.reverse ++ ['/']) := by
    rw [List.dropWhile_append_of_pos hall, List.dropWhile_cons_of_neg (by decide)]
  unfold Reader.splitRegex
  rw [hreverse, htake, hdrop]
  simp

theorem RegexLiteral.eq_of_make {source flags : String} {r : RegexLiteral}
    (h : make source flags = .ok r) : r = ⟨source, flags⟩ := by
  unfold make at h
  dsimp only at h
  split at h
  · exact (Except.ok.inj h).symm
  · cases h

/-- Only a regular expression token is read as a literal, and its text is that of the literal. -/
theorem make_of_atom {t : Token} {r : RegexLiteral} {span : Span}
    (h : Reader.atom t = .ok (.atom (.regex r) span)) : t.kind = .regex ∧
      RegexLiteral.make (String.ofList (Reader.splitRegex t.text.toList).1)
        (String.ofList (Reader.splitRegex t.text.toList).2) = .ok r := by
  unfold Reader.atom at h
  split at h
  case h_4 hkind =>
    refine ⟨hkind, ?_⟩
    dsimp only at h
    split at h
    · next hmake =>
      cases h
      exact hmake
    · cases h
  case h_1 => split at h <;> cases h
  case h_3 => split at h <;> cases h
  all_goals cases h

/-- A regular expression token is read as a literal if one can be made of its body and its flags. -/
theorem atom_of_make {t : Token} {r : RegexLiteral} {body flags : List Char}
    (hkind : t.kind = .regex) (htext : t.text.toList = '/' :: (body ++ '/' :: flags))
    (hflags : '/' ∉ flags)
    (hmake : RegexLiteral.make (String.ofList body) (String.ofList flags) = .ok r) :
    Reader.atom t = .ok (.atom (.regex r) t.span) := by
  rw [Reader.atom, hkind, htext, splitRegex_eq hflags]
  simp only [hmake]

theorem reads_regex {r : RegexLiteral} (made : r.IsRead) (span : Span) :
    Reads (Atom.regex r).text.toList (.atom (.regex r) span) := by
  obtain ⟨source, t, hmem, place, hatom⟩ := made
  obtain ⟨hkind, hmake⟩ := make_of_atom hatom
  obtain ⟨c, from_, n, hmunch, htext⟩ := Lexer.exists_munch_of_mem hmem
  rw [hkind] at hmunch
  obtain ⟨body, flags, hcut, hflags, htakes⟩ := Lexer.takes_regex_of_munch hmunch
  -- The literal keeps its parts as they were written, so its text is that of the token.
  rw [htext, hcut, String.toList_ofList, splitRegex_eq hflags] at hmake
  obtain rfl := RegexLiteral.eq_of_make hmake
  have hliteral : (Atom.regex ⟨String.ofList body, String.ofList flags⟩).text.toList =
      '/' :: (body ++ '/' :: flags) := by
    simp [Atom.text, RegexLiteral.text, String.toList_append]
  rw [hliteral]
  refine reads_of_takes htakes ?_
  intro u hu hutext
  refine ⟨.atom (.regex _) u.span, ?_, beq_self_eq_true _⟩
  exact atom_of_make hu (by rw [hutext, String.toList_ofList]) hflags hmake

/-! ### Reading what was printed -/

namespace Node

theorem text_atom (a : Atom) (span : Span) : (atom a span).text = a.text := by
  simp [text, writeOnto, leafText]

/-- Whatever neither continues a list nor closes it stands behind a dot. -/
theorem restText_leaf {n : Node} (hpair : ∀ l a d s, n ≠ pair l a d s)
    (hnil : ∀ s, n ≠ atom .nil s) : n.restText = " . " ++ n.leafText ++ ")" := by
  rw [restText, writeRestOnto, String.empty_append]
  · exact hpair
  · exact hnil

theorem restText_atom {a : Atom} (h : a ≠ .nil) (span : Span) :
    (atom a span).restText = " . " ++ a.text ++ ")" := by
  refine restText_leaf nofun fun s e ↦ ?_
  obtain ⟨hnil, -⟩ := atom.inj e
  exact h hnil

/-- What follows an element is set off from it. -/
theorem atBoundary_restText (n : Node) (more : List Char) :
    AtBoundary (n.restText.toList ++ more) := by
  have set_off (text : String) : AtBoundary ((" " ++ text).toList ++ more) := by
    rw [String.toList_append]
    exact Lexer.atBoundary_space _
  have leaf (text : String) : AtBoundary ((" . " ++ text ++ ")").toList ++ more) := by
    rw [show " . " = " " ++ ". " from rfl, String.append_assoc, String.append_assoc]
    exact set_off _
  cases n with
  | atom a span =>
    by_cases h : a = .nil
    · rw [h, restText_nil]
      exact Lexer.atBoundary_bracket more
    · rw [restText_atom h]
      exact leaf a.text
  | pair label car cdr span =>
    rw [restText_pair, String.append_assoc]
    exact set_off _
  | closure =>
    rw [restText_leaf]
    · exact leaf _
    · exact nofun
    · exact nofun
  | transformer =>
    rw [restText_leaf]
    · exact leaf _
    · exact nofun
    · exact nofun

/-- An atom other than the empty list reads as an element and as a tail. -/
theorem reads_atom {a : Atom} (h : a ≠ .nil) {span : Span}
    (hreads : Reads a.text.toList (.atom a span)) :
    Reads (atom a span).text.toList (.atom a span) ∧
      ReadsRest (atom a span).restText.toList (.atom a span) := by
  have htail : (atom a span).restText.toList =
      ' ' :: '.' :: ' ' :: (a.text.toList ++ [')']) := by
    simp [restText_atom h, String.toList_append]
  rw [text_atom, htail]
  exact ⟨hreads, readsRest_tail hreads⟩

/-- Readable data reads as an element of a list, and as what follows one. -/
theorem Readable.reads {n : Node} (h : n.Readable) :
    Reads n.text.toList n ∧ ReadsRest n.restText.toList n := by
  -- As an element the data is written with its own brackets, as what follows one without.
  induction h with
  | nil span =>
    rw [Node.nil, text_atom, restText_nil]
    exact ⟨reads_nil span, readsRest_nil span⟩
  | boolean b span => exact reads_atom (a := .boolean b) (by simp) (reads_boolean b span)
  | string s span => exact reads_atom (a := .string s) (by simp) (reads_string s span)
  | number n span exact => exact reads_atom (a := .number n) (by simp) (reads_number exact span)
  | symbol name span one slash =>
    exact reads_atom (a := .symbol name) (by simp) (reads_symbol one slash span)
  | regex r span made => exact reads_atom (a := .regex r) (by simp) (reads_regex made span)
  | pair label car cdr span first second ihcar ihcdr =>
    have hpair : (Node.pair label car cdr span).text.toList =
        '(' :: (car.text.toList ++ cdr.restText.toList) := by
      simp [text_pair, String.toList_append]
    have hrest : (Node.pair label car cdr span).restText.toList =
        ' ' :: (car.text.toList ++ cdr.restText.toList) := by
      simp [restText_pair, String.toList_append]
    rw [hpair, hrest]
    exact ⟨reads_pair ihcar.1 ihcdr.2 cdr.atBoundary_restText label span,
      readsRest_cons ihcar.1 ihcdr.2 cdr.atBoundary_restText label span⟩

end Node

/-- **Printing then reading is the identity on readable data.** The written form of a node is read
as one form, which is the node again, spans apart. -/
theorem read_text {n : Node} (h : n.Readable) :
    ∃ form, read n.text = .ok [form] ∧ form.same n = true := by
  obtain ⟨d, offset, htokens, hsame⟩ := h.reads.1 0 [] Lexer.atBoundary_nil
  rw [List.append_nil, Lexer.tokensFrom_nil, List.append_nil] at htokens
  refine ⟨d.value, ?_, hsame⟩
  have hread := Reader.readTokens_tokensOf [d]
  rw [Derivation.tokensOf_singleton, Derivation.valuesOf_singleton] at hread
  rw [read, tokenize, htokens, hread]

/-- A dotted list of a symbol, a string that needs escapes, a number that does not fit into 64 bits
and a regular expression is read back from its written form. -/
theorem read_text_dotted :
    let n := Node.listWithTail [.symbol "set!" .nowhere, .string "a\"\n" .nowhere,
      .number (.big (-9223372036854775809)) .nowhere, .nil .nowhere]
      (.atom (.regex ⟨"a+", "i"⟩) .nowhere) .nowhere
    n.text = "(set! \"a\\\"\\n\" -9223372036854775809 () . /a+/i)" ∧
      ∃ form, read n.text = .ok [form] ∧ form.same n = true := by
  have hsymbol : IsSymbolText "set!" := Lexer.tokenize_of_takes (by decide)
  have hregex : RegexLiteral.IsRead ⟨"a+", "i"⟩ := by
    have htakes : Takes .regex "/a+/i".toList [] := by decide
    obtain ⟨span, htokens⟩ := Lexer.tokenize_of_takes htakes
    refine ⟨"/a+/i", ⟨.regex, "/a+/i", span⟩, ?_, span, ?_⟩
    · rw [htokens]
      exact List.mem_singleton_self _
    · have htext : "/a+/i".toList = '/' :: (['a', '+'] ++ '/' :: ['i']) := by decide
      exact atom_of_make rfl htext (by decide) rfl
  intro n
  have h : n.Readable :=
    .pair _ _ _ _ (.symbol _ _ hsymbol (by decide)) <|
      .pair _ _ _ _ (.string _ _) <| .pair _ _ _ _ (.number _ _ rfl) <|
        .pair _ _ _ _ (.nil _) (.regex _ _ hregex)
  exact ⟨by decide, read_text h⟩

end MiniLisp
