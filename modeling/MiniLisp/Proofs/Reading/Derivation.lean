import MiniLisp.Reader.Basic

/-!
# Derivations

The grammar of programs, apart from the reader. A form is one of

* an atom, that is a token of which an atom can be made,
* a quote mark and a form,
* a list: forms between brackets,
* a dotted list: one form or more, a dot, and one form for the tail, between brackets.

A derivation is a tree of these rules in which every token is of the kind that its place asks for,
so a tree that cannot be written does not exist. It has a yield, the tokens from left to right
(`tokens`), and a value, the node that it stands for (`value`).

Main statement: the grammar is unambiguous (`eq_of_tokensOf_eq`). What carries the proof is that no
form begins with a closing bracket or a dot, so where a row of forms stops can be seen from the next
token (`tokensOf_cancel`).
-/

namespace MiniLisp

/-- The kind of the token of a mark. -/
def QuoteMark.tokenKind : QuoteMark → TokenKind
  | quote => .quote
  | quasiquote => .quasiquote
  | unquote => .unquote
  | splice => .splice

/-- How a form is made of tokens. -/
inductive Derivation where
  | atom (token : Token) (value : Node) (reads : Reader.atom token = .ok value)
  /-- A mark in front of a form. -/
  | sugar (mark : QuoteMark) (token : Token) (form : Derivation)
      (marks : token.kind = mark.tokenKind)
  | list (opening : Token) (items : List Derivation) (closing : Token)
      (opens : opening.kind = .leftParen) (closes : closing.kind = .rightParen)
  | dotted (opening : Token) (first : Derivation) (items : List Derivation) (dot : Token)
      (tail : Derivation) (closing : Token) (opens : opening.kind = .leftParen)
      (dots : dot.kind = .dot) (closes : closing.kind = .rightParen)

namespace Derivation

/-- Induction over derivations: to the form under a mark, and to all forms in a list. -/
@[induction_eliminator]
theorem induct {motive : Derivation → Prop}
    (atom : ∀ token value reads, motive (.atom token value reads))
    (sugar : ∀ mark token form marks, motive form → motive (.sugar mark token form marks))
    (list : ∀ opening items closing opens closes, (∀ d ∈ items, motive d) →
      motive (.list opening items closing opens closes))
    (dotted : ∀ opening first items dot tail closing opens dots closes, motive first →
      (∀ d ∈ items, motive d) → motive tail →
      motive (.dotted opening first items dot tail closing opens dots closes))
    (d : Derivation) : motive d :=
  @Derivation.rec motive (fun ds ↦ ∀ d ∈ ds, motive d) atom sugar list dotted
    (fun _ h ↦ absurd h List.not_mem_nil)
    (fun _ _ hfirst hrest _ h ↦ (List.mem_cons.1 h).elim (fun e ↦ e ▸ hfirst) (hrest _)) d

/-! ### Yield and value -/

mutual

/-- The tokens of a form. -/
def tokens : Derivation → List Token
  | atom token _ _ => [token]
  | sugar _ token form _ => token :: form.tokens
  | list opening items closing _ _ => opening :: (tokensOf items ++ [closing])
  | dotted opening first items dot tail closing _ _ _ =>
    opening :: (first.tokens ++ tokensOf items ++ dot :: (tail.tokens ++ [closing]))

/-- The tokens of a row of forms. -/
def tokensOf : List Derivation → List Token
  | [] => []
  | d :: ds => d.tokens ++ tokensOf ds

end

mutual

/-- The node that a form stands for. A list spans from its opening bracket to its closing one. -/
def value : Derivation → Node
  | atom _ value _ => value
  | sugar mark token form _ => .tagged mark.name token.span form.value
  | list opening items closing _ _ =>
    .ofList (valuesOf items) ⟨opening.span.start, closing.span.stop⟩
  | dotted opening first items _ tail closing _ _ _ =>
    .listWithTail (first.value :: valuesOf items) tail.value
      ⟨opening.span.start, closing.span.stop⟩

/-- The nodes that a row of forms stands for. -/
def valuesOf : List Derivation → List Node
  | [] => []
  | d :: ds => d.value :: valuesOf ds

end

theorem tokensOf_append (ds es : List Derivation) :
    tokensOf (ds ++ es) = tokensOf ds ++ tokensOf es := by
  induction ds with
  | nil => rfl
  | cons d ds ih => rw [List.cons_append, tokensOf, tokensOf, ih, List.append_assoc]

theorem valuesOf_append (ds es : List Derivation) :
    valuesOf (ds ++ es) = valuesOf ds ++ valuesOf es := by
  induction ds with
  | nil => rfl
  | cons d ds ih => rw [List.cons_append, valuesOf, valuesOf, ih, List.cons_append]

@[simp] theorem tokensOf_singleton (d : Derivation) : tokensOf [d] = d.tokens := by
  rw [tokensOf, tokensOf, List.append_nil]

@[simp] theorem valuesOf_singleton (d : Derivation) : valuesOf [d] = [d.value] := by
  rw [valuesOf, valuesOf]

/-! ### The first token of a form -/

/-- The rules of the grammar as far as the first token of a form tells them apart. -/
inductive Start where
  | atom
  | sugar (mark : QuoteMark)
  | bracket

/-- What a token of a kind begins, if it begins a form. -/
def Start.ofKind : TokenKind → Start
  | .leftParen => .bracket
  | .quote => .sugar .quote
  | .quasiquote => .sugar .quasiquote
  | .unquote => .sugar .unquote
  | .splice => .sugar .splice
  | _ => .atom

@[simp] theorem Start.ofKind_tokenKind (mark : QuoteMark) :
    ofKind mark.tokenKind = .sugar mark := by
  cases mark <;> rfl

/-- A token of which an atom can be made is none of those that structure a program. -/
theorem kind_of_atom {t : Token} {n : Node} (h : Reader.atom t = .ok n) :
    Start.ofKind t.kind = .atom ∧ t.kind ≠ .rightParen ∧ t.kind ≠ .dot := by
  unfold Reader.atom at h
  cases hk : t.kind <;> simp_all [Start.ofKind]

/-- The rule that a form is made by. -/
def start : Derivation → Start
  | atom _ _ _ => .atom
  | sugar mark _ _ _ => .sugar mark
  | list _ _ _ _ _ => .bracket
  | dotted _ _ _ _ _ _ _ _ _ => .bracket

/-- The first token of a form. -/
def head : Derivation → Token
  | atom token _ _ => token
  | sugar _ token _ _ => token
  | list opening _ _ _ _ => opening
  | dotted opening _ _ _ _ _ _ _ _ => opening

/-- The tokens of a form after the first. -/
def rest : Derivation → List Token
  | atom _ _ _ => []
  | sugar _ _ form _ => form.tokens
  | list _ items closing _ _ => tokensOf items ++ [closing]
  | dotted _ first items dot tail closing _ _ _ =>
    tokensOf (first :: items) ++ dot :: (tail.tokens ++ [closing])

theorem tokens_eq_cons (d : Derivation) : d.tokens = d.head :: d.rest := by
  cases d <;> simp only [tokens, head, rest, tokensOf]

/-- The first token of a form tells the rule. -/
theorem ofKind_head (d : Derivation) : Start.ofKind d.head.kind = d.start := by
  cases d with
  | atom token value reads => exact (kind_of_atom reads).1
  | sugar mark token form marks => rw [head, marks, Start.ofKind_tokenKind, start]
  | list opening items closing opens closes => rw [head, opens]; rfl
  | dotted opening first items dot tail closing opens dots closes => rw [head, opens]; rfl

/-- No form begins with a closing bracket or a dot. -/
theorem kind_head (d : Derivation) : d.head.kind ≠ .rightParen ∧ d.head.kind ≠ .dot := by
  cases d with
  | atom token value reads => exact (kind_of_atom reads).2
  | sugar mark token form marks =>
    rw [head, marks]
    cases mark <;> simp [QuoteMark.tokenKind]
  | list opening items closing opens closes => simp [head, opens]
  | dotted opening first items dot tail closing opens dots closes => simp [head, opens]

/-- What follows a row of forms: nothing, a closing bracket or a dot. -/
def Stops (ts : List Token) : Prop :=
  ∀ t ∈ ts.head?, t.kind = .rightParen ∨ t.kind = .dot

theorem not_stops_tokens (d : Derivation) (ts : List Token) : ¬ Stops (d.tokens ++ ts) := by
  intro h
  rw [tokens_eq_cons] at h
  rcases h d.head rfl with h | h
  · exact d.kind_head.1 h
  · exact d.kind_head.2 h

/-! ### Unambiguity -/

/-- A form that begins a row of tokens is determined by it, and so is what follows the form. -/
def Cancels (d : Derivation) : Prop :=
  ∀ (e : Derivation) (ts us : List Token), d.tokens ++ ts = e.tokens ++ us → d = e ∧ ts = us

/-- Rows of forms are determined by their tokens where they stop, given that each form is. -/
theorem tokensOf_cancel {ds : List Derivation} (hds : ∀ d ∈ ds, Cancels d) :
    ∀ {es : List Derivation} {ts us : List Token}, Stops ts → Stops us →
      tokensOf ds ++ ts = tokensOf es ++ us → ds = es ∧ ts = us := by
  induction ds with
  | nil =>
    intro es ts us hts hus h
    cases es with
    | nil => exact ⟨rfl, h⟩
    | cons e es =>
      rw [tokensOf, tokensOf, List.nil_append, List.append_assoc] at h
      exact absurd (h ▸ hts) (not_stops_tokens e _)
  | cons d ds ih =>
    intro es ts us hts hus h
    cases es with
    | nil =>
      rw [tokensOf, tokensOf, List.nil_append, List.append_assoc] at h
      exact absurd (h ▸ hus) (not_stops_tokens d _)
    | cons e es =>
      rw [tokensOf, tokensOf, List.append_assoc, List.append_assoc] at h
      obtain ⟨rfl, htail⟩ := hds d List.mem_cons_self e _ _ h
      obtain ⟨rfl, rfl⟩ := ih (fun d hd ↦ hds d (List.mem_cons_of_mem _ hd)) hts hus htail
      exact ⟨rfl, rfl⟩

theorem stops_cons_of_rightParen {t : Token} (h : t.kind = .rightParen) (ts : List Token) :
    Stops (t :: ts) := by
  rintro u ⟨⟩
  exact .inl h

theorem stops_cons_of_dot {t : Token} (h : t.kind = .dot) (ts : List Token) :
    Stops (t :: ts) := by
  rintro u ⟨⟩
  exact .inr h

theorem stops_nil : Stops [] := nofun

/-- Only forms that begin alike have to be compared, by what follows their first token. -/
theorem cancels_of_rest {d : Derivation}
    (h : ∀ (e : Derivation) (ts us : List Token), d.head = e.head → d.start = e.start →
      d.rest ++ ts = e.rest ++ us → d = e ∧ ts = us) : Cancels d := by
  intro e ts us htokens
  rw [tokens_eq_cons, tokens_eq_cons e] at htokens
  obtain ⟨hhead, hrest⟩ := List.cons.inj htokens
  have hstart : d.start = e.start := by rw [← ofKind_head d, ← ofKind_head e, hhead]
  exact h e ts us hhead hstart hrest

/-- Two forms with the same first token are made by rules that begin alike, and the two rules that
do differ in the token behind the last element. -/
theorem cancels (d : Derivation) : Cancels d := by
  induction d with
  | atom token value reads =>
    refine cancels_of_rest fun e ts us hhead hstart hrest ↦ ?_
    cases e with
    | atom token' value' reads' =>
      obtain rfl : token = token' := hhead
      obtain rfl : value = value' := Except.ok.inj (reads.symm.trans reads')
      exact ⟨rfl, hrest⟩
    | sugar => cases hstart
    | list => cases hstart
    | dotted => cases hstart
  | sugar mark token form marks ih =>
    refine cancels_of_rest fun e ts us hhead hstart hrest ↦ ?_
    cases e with
    | atom => cases hstart
    | sugar mark' token' form' marks' =>
      obtain rfl : token = token' := hhead
      obtain rfl : mark = mark' := Start.sugar.inj hstart
      obtain ⟨rfl, rfl⟩ := ih form' ts us hrest
      exact ⟨rfl, rfl⟩
    | list => cases hstart
    | dotted => cases hstart
  | list opening items closing opens closes ih =>
    refine cancels_of_rest fun e ts us hhead hstart hrest ↦ ?_
    have hstops := stops_cons_of_rightParen closes ts
    cases e with
    | atom => cases hstart
    | sugar => cases hstart
    | list opening' items' closing' opens' closes' =>
      obtain rfl : opening = opening' := hhead
      simp only [rest, List.append_assoc, List.singleton_append] at hrest
      obtain ⟨rfl, hlast⟩ :=
        tokensOf_cancel ih hstops (stops_cons_of_rightParen closes' us) hrest
      obtain ⟨rfl, rfl⟩ := List.cons.inj hlast
      exact ⟨rfl, rfl⟩
    | dotted opening' first' items' dot' tail' closing' opens' dots' closes' =>
      simp only [rest, List.append_assoc, List.cons_append] at hrest
      obtain ⟨-, hlast⟩ := tokensOf_cancel ih hstops (stops_cons_of_dot dots' _) hrest
      have hkind : closing.kind = .dot := (List.cons.inj hlast).1 ▸ dots'
      exact absurd (closes.symm.trans hkind) nofun
  | dotted opening first items dot tail closing opens dots closes ihfirst ihitems ihtail =>
    refine cancels_of_rest fun e ts us hhead hstart hrest ↦ ?_
    have hall : ∀ d ∈ first :: items, Cancels d := List.forall_mem_cons.2 ⟨ihfirst, ihitems⟩
    cases e with
    | atom => cases hstart
    | sugar => cases hstart
    | list opening' items' closing' opens' closes' =>
      simp only [rest, List.append_assoc, List.cons_append] at hrest
      obtain ⟨-, hlast⟩ := tokensOf_cancel hall (stops_cons_of_dot dots _)
        (stops_cons_of_rightParen closes' us) hrest
      have hkind : dot.kind = .rightParen := (List.cons.inj hlast).1 ▸ closes'
      exact absurd (dots.symm.trans hkind) nofun
    | dotted opening' first' items' dot' tail' closing' opens' dots' closes' =>
      obtain rfl : opening = opening' := hhead
      simp only [rest, List.append_assoc, List.cons_append] at hrest
      obtain ⟨hitems, hlast⟩ :=
        tokensOf_cancel hall (stops_cons_of_dot dots _) (stops_cons_of_dot dots' _) hrest
      obtain ⟨rfl, rfl⟩ := List.cons.inj hitems
      obtain ⟨rfl, htail⟩ := List.cons.inj hlast
      obtain ⟨rfl, hend⟩ := ihtail tail' _ _ htail
      obtain ⟨rfl, rfl⟩ := List.cons.inj hend
      exact ⟨rfl, rfl⟩

/-- The grammar is unambiguous: a row of forms is determined by its tokens. -/
theorem eq_of_tokensOf_eq {ds es : List Derivation} (h : tokensOf ds = tokensOf es) : ds = es :=
  (tokensOf_cancel (fun d _ ↦ d.cancels) stops_nil stops_nil
    (by rw [List.append_nil, List.append_nil, h])).1

end Derivation

end MiniLisp
