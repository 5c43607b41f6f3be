import MiniLisp.Proofs.Reading.Lines
import MiniLisp.Proofs.Reading.Nesting

/-!
# The text of a form

The text under the span of a form is that form: read by itself it gives the one form, only nearer to
the beginning (`read_slice`). This holds of every form that the reader completes on its way, be it a
form of the program, an element of a list, its tail, or the form behind a mark.

`Reader.completed` lists these forms in the order in which they are completed. A form is completed
by the token that hands it over, and the steps that push a form are those for such tokens
(`Reader.step_of_handed`, `Reader.step_of_not_handed`). The forms are the values of the derivations
inside the one of the program (`Derivation.completed_tokensOf`), and the tokens of a derivation
stand together in the text (`Derivation.surrounds`). So the text may be cut in front of the first of
them and behind the last, where the lexer sees no difference (`exists_slice_of_tokens`).
-/

namespace MiniLisp

namespace Reader

/-! ### What the reader completes -/

/-- The forms that are complete when a form is: the form itself, and those of the marks that wait
for it, from the inside out. -/
def completedBy (n : Node) : List Frame → List Node
  | .mark m span :: rest => n :: completedBy (.tagged m.name span n) rest
  | _ => [n]

/-- The form that a token hands to the open constructs: an atom, or the list that it closes. -/
def handed? (st : State) (t : Token) : Option (Node × List Frame) :=
  match t.kind with
  | .rightParen => match st.stack with
    | .list start items .absent :: rest =>
      some (.ofList items.reverse ⟨start, t.span.stop⟩, rest)
    | .list start items (.filled tail) :: rest =>
      some (.listWithTail items.reverse tail ⟨start, t.span.stop⟩, rest)
    | _ => none
  | _ => match atom t with
    | .ok n => some (n, st.stack)
    | .error _ => none

/-- The forms that are complete with a token. -/
def completedAt (st : State) (t : Token) : List Node :=
  match handed? st t with
  | some (n, stack) => completedBy n stack
  | none => []

/-- The forms that are completed while tokens are read, as far as they are accepted. -/
def completed (st : State) : List Token → List Node
  | [] => []
  | t :: ts => completedAt st t ++ match step st t with
    | .ok st' => completed st' ts
    | .error _ => []

/-- The form that a token hands over is the one that is pushed. -/
theorem step_of_handed {st : State} {t : Token} {n : Node} {stack : List Frame}
    (h : handed? st t = some (n, stack)) : step st t = push st.forms n stack := by
  obtain ⟨frames, forms⟩ := st
  unfold handed? at h
  split at h
  · next hkind =>
    rw [step_of_rightParen hkind]
    split at h
    · next start items rest hstack =>
      obtain rfl : frames = _ := hstack
      cases h
      exact close_absent _ _ _ _ _
    · next start items tail rest hstack =>
      obtain rfl : frames = _ := hstack
      cases h
      rfl
    · cases h
  · rcases hatom : atom t with e | n'
    · rw [hatom] at h
      cases h
    · rw [hatom] at h
      cases h
      exact step_of_atom hatom _

/-- A token that hands no form over is rejected, opens a construct or is a dot. -/
theorem step_of_not_handed {st : State} {t : Token} (h : handed? st t = none) :
    (∃ e, step st t = .error e) ∨ (∃ f, step st t = .ok (st.openFrame f)) ∨
      step st t = dot st t.span := by
  unfold handed? at h
  unfold step
  split
  · exact .inr (.inl ⟨_, rfl⟩)
  · next hkind =>
    obtain ⟨stack, forms⟩ := st
    simp only [hkind] at h
    rcases stack with - | ⟨⟨start, items, _ | span | tail⟩ | ⟨m, span⟩, stack⟩
    · exact .inl ⟨_, rfl⟩
    · cases h
    · exact .inl ⟨_, rfl⟩
    · cases h
    · exact .inl ⟨_, rfl⟩
  · exact .inr (.inr rfl)
  · exact .inr (.inl ⟨_, rfl⟩)
  · exact .inr (.inl ⟨_, rfl⟩)
  · exact .inr (.inl ⟨_, rfl⟩)
  · exact .inr (.inl ⟨_, rfl⟩)
  · rcases hatom : atom t with e | n
    · exact .inl ⟨e, rfl⟩
    · split at h
      · next hkind => exact absurd hkind (Derivation.kind_of_atom hatom).2.1
      · rw [hatom] at h
        cases h

/-- A token that opens a construct, or is a dot, hands nothing over. -/
theorem completedAt_eq_nil {t : Token} (h : t.kind = .leftParen ∨ t.kind = .dot ∨
    ∃ mark : QuoteMark, t.kind = mark.tokenKind) (st : State) : completedAt st t = [] := by
  obtain ⟨kind, text, span⟩ := t
  rcases h with rfl | rfl | ⟨mark, rfl⟩
  · rfl
  · rfl
  · cases mark <;> rfl

theorem completedAt_of_atom {t : Token} {n : Node} (h : atom t = .ok n) (st : State) :
    completedAt st t = completedBy n st.stack := by
  have hhanded : handed? st t = some (n, st.stack) := by
    rw [handed?, h]
    split
    · next hkind => exact absurd hkind (Derivation.kind_of_atom h).2.1
    · rfl
  rw [completedAt, hhanded]

theorem completedAt_of_rightParen {t : Token} (h : t.kind = .rightParen) {start : Nat}
    {items : List Node} {stack : List Frame} {forms : List Node} :
    completedAt ⟨.list start items .absent :: stack, forms⟩ t =
        completedBy (.ofList items.reverse ⟨start, t.span.stop⟩) stack ∧
      ∀ tail, completedAt ⟨.list start items (.filled tail) :: stack, forms⟩ t =
        completedBy (.listWithTail items.reverse tail ⟨start, t.span.stop⟩) stack := by
  simp only [completedAt, handed?, h, implies_true, and_self]

theorem completed_cons_of_ok {st st' : State} {t : Token} (h : step st t = .ok st')
    (ts : List Token) : completed st (t :: ts) = completedAt st t ++ completed st' ts := by
  rw [completed, h]

/-- One token more, whether it is accepted or not. -/
theorem completed_singleton (st : State) (t : Token) : completed st [t] = completedAt st t := by
  rw [completed]
  cases step st t <;> exact List.append_nil _

theorem completed_append_of_ok {st st' : State} {ts : List Token} (h : steps st ts = .ok st')
    (us : List Token) : completed st (ts ++ us) = completed st ts ++ completed st' us := by
  induction ts generalizing st with
  | nil =>
    cases h
    rfl
  | cons t ts ih =>
    obtain ⟨next, hstep, hsteps⟩ := exists_of_steps_cons h
    rw [List.cons_append, completed_cons_of_ok hstep, completed_cons_of_ok hstep, ih hsteps,
      List.append_assoc]

end Reader

namespace Derivation

open Reader (completed completedAt completedBy State Frame)

/-! ### Derivations inside a derivation -/

mutual

/-- The derivations inside a form, each behind those inside it. -/
def inner : Derivation → List Derivation
  | atom _ _ _ => []
  | sugar _ _ form _ => form.inner ++ [form]
  | list _ items _ _ _ => within items
  | dotted _ first items _ tail _ _ _ _ =>
    first.inner ++ first :: (within items ++ (tail.inner ++ [tail]))

/-- The derivations of a row of forms and those inside them. -/
def within : List Derivation → List Derivation
  | [] => []
  | d :: ds => d.inner ++ d :: within ds

end

/-- The forms of a row are among its derivations. -/
theorem subset_within (ds : List Derivation) : ds ⊆ within ds := by
  induction ds with
  | nil => exact List.nil_subset _
  | cons d ds ih =>
    rw [within]
    refine List.cons_subset.mpr ⟨?_, fun e he ↦ ?_⟩
    · exact List.mem_append_right _ List.mem_cons_self
    · exact List.mem_append_right _ (List.mem_cons_of_mem _ (ih he))

/-- The tokens of a form inside another one stand together. -/
def Surrounds (d : Derivation) : Prop := ∀ e ∈ d.inner, e.tokens <:+: d.tokens

theorem infix_tokensOf {ds : List Derivation} (hds : ∀ d ∈ ds, Surrounds d) :
    ∀ e ∈ within ds, e.tokens <:+: tokensOf ds := by
  induction ds with
  | nil => exact fun e he ↦ absurd he List.not_mem_nil
  | cons d ds ih =>
    obtain ⟨hd, hds⟩ := List.forall_mem_cons.mp hds
    intro e he
    have hfirst : d.tokens <:+: tokensOf (d :: ds) := (List.prefix_append _ _).isInfix
    have hrest : tokensOf ds <:+: tokensOf (d :: ds) := (List.suffix_append _ _).isInfix
    rw [within] at he
    rcases List.mem_append.mp he with he | he
    · exact (hd e he).trans hfirst
    · rcases List.mem_cons.mp he with rfl | he
      · exact hfirst
      · exact (ih hds e he).trans hrest

theorem surrounds (d : Derivation) : Surrounds d := by
  induction d with
  | atom token value reads => exact fun e he ↦ absurd he List.not_mem_nil
  | sugar mark token form marks ih =>
    intro e he
    have hform : form.tokens <:+: (sugar mark token form marks).tokens :=
      (List.suffix_cons _ _).isInfix
    rcases List.mem_append.mp he with he | he
    · exact (ih e he).trans hform
    · rwa [List.mem_singleton.mp he]
  | list opening items closing opens closes ih =>
    intro e he
    exact (infix_tokensOf ih e he).trans ⟨[opening], [closing], rfl⟩
  | dotted opening first items dot tail closing opens dots closes ihfirst ihitems ihtail =>
    intro e he
    have hall : ∀ d ∈ first :: items, Surrounds d := List.forall_mem_cons.mpr ⟨ihfirst, ihitems⟩
    have hitems : tokensOf (first :: items) <:+:
        (dotted opening first items dot tail closing opens dots closes).tokens :=
      ⟨[opening], dot :: (tail.tokens ++ [closing]), by simp [tokens, tokensOf]⟩
    have htail : tail.tokens <:+:
        (dotted opening first items dot tail closing opens dots closes).tokens :=
      ⟨opening :: (tokensOf (first :: items) ++ [dot]), [closing], by simp [tokens, tokensOf]⟩
    have hsplit : e ∈ within (first :: items) ∨ e ∈ tail.inner ∨ e = tail := by
      simpa [inner, within, or_assoc] using he
    rcases hsplit with he | he | rfl
    · exact (infix_tokensOf hall e he).trans hitems
    · exact (ihtail e he).trans htail
    · exact htail

/-! ### What is completed with a derivation -/

/-- While the tokens of a form are read, the forms inside it are completed, and then the form and
those of the marks that wait for it. -/
def Completes (d : Derivation) : Prop :=
  ∀ st : State, completed st d.tokens = d.inner.map value ++ completedBy d.value st.stack

/-- What is complete next joins a row of forms: those of the program, or of a list without a dot. -/
def InRow (stack : List Frame) : Prop :=
  stack = [] ∨ ∃ start items outer, stack = .list start items .absent :: outer

theorem completed_tokensOf {ds : List Derivation} (hds : ∀ d ∈ ds, Completes d) {st : State}
    (hst : InRow st.stack) : completed st (tokensOf ds) = (within ds).map value := by
  induction ds generalizing st with
  | nil => rfl
  | cons d ds ih =>
    obtain ⟨hd, hds⟩ := List.forall_mem_cons.mp hds
    obtain ⟨st', hpush, hst', hcompletes⟩ : ∃ st', Reader.push st.forms d.value st.stack = .ok st' ∧
        InRow st'.stack ∧ completedBy d.value st.stack = [d.value] := by
      obtain ⟨stack, forms⟩ := st
      rcases hst with rfl | ⟨start, items, outer, rfl⟩
      · exact ⟨_, rfl, .inl rfl, rfl⟩
      · exact ⟨_, rfl, .inr ⟨_, _, _, rfl⟩, rfl⟩
    rw [tokensOf, Reader.completed_append_of_ok ((Reader.steps_tokens d st).trans hpush), hd,
      hcompletes, ih hds hst', within, List.map_append, List.map_cons, List.append_assoc,
      List.singleton_append]

theorem completes (d : Derivation) : Completes d := by
  induction d with
  | atom token value reads =>
    intro st
    rw [tokens, Reader.completed_singleton, Reader.completedAt_of_atom reads]
    rfl
  | sugar mark token form marks ih =>
    intro st
    rw [tokens, Reader.completed_cons_of_ok (Reader.step_of_mark marks st),
      Reader.completedAt_eq_nil (.inr (.inr ⟨mark, marks⟩)), ih, inner, List.map_append,
      List.append_assoc]
    rfl
  | list opening items closing opens closes ih =>
    intro st
    have hitems := Reader.steps_items (fun d (_ : d ∈ items) ↦ Reader.steps_tokens d) st.forms
      opening.span.start st.stack []
    rw [tokens, Reader.completed_cons_of_ok (Reader.step_of_leftParen opens st),
      Reader.completedAt_eq_nil (.inl opens)]
    show completed ⟨.list _ [] .absent :: st.stack, st.forms⟩ (tokensOf items ++ [closing]) = _
    rw [Reader.completed_append_of_ok hitems, completed_tokensOf ih (.inr ⟨_, _, _, rfl⟩),
      Reader.completed_singleton, (Reader.completedAt_of_rightParen closes).1, List.append_nil,
      List.reverse_reverse]
    rfl
  | dotted opening first items dot tail closing opens dots closes ihfirst ihitems ihtail =>
    intro st
    have hall : ∀ d ∈ first :: items, Completes d := List.forall_mem_cons.mpr ⟨ihfirst, ihitems⟩
    have hitems := Reader.steps_items (fun d (_ : d ∈ first :: items) ↦ Reader.steps_tokens d)
      st.forms opening.span.start st.stack []
    -- There are elements, so the dot is accepted, and what follows it is pushed as the tail.
    have hnonempty : (valuesOf (first :: items)).reverse ++ [] ≠ [] := by simp [valuesOf]
    have hdot := Reader.step_dot_of_ne_nil dots hnonempty opening.span.start st.stack st.forms
    rw [tokens, Reader.completed_cons_of_ok (Reader.step_of_leftParen opens st),
      Reader.completedAt_eq_nil (.inl opens)]
    show completed ⟨.list _ [] .absent :: st.stack, st.forms⟩
      (tokensOf (first :: items) ++ dot :: (tail.tokens ++ [closing])) = _
    rw [Reader.completed_append_of_ok hitems, completed_tokensOf hall (.inr ⟨_, _, _, rfl⟩),
      Reader.completed_cons_of_ok hdot, Reader.completedAt_eq_nil (.inr (.inl dots)),
      Reader.completed_append_of_ok (Reader.steps_tokens tail _), ihtail,
      Reader.completed_singleton, (Reader.completedAt_of_rightParen closes).2, List.append_nil,
      List.reverse_reverse]
    simp [inner, within, value, valuesOf, completedBy]

end Derivation

/-- Tokens that stand together are those of a piece of the text, moved to where it begins. -/
theorem exists_slice_of_tokens {source : String} {ts front back init rest : List Token}
    {first last : Token} (h : tokenize source = front ++ (ts ++ back)) (hfirst : ts = first :: rest)
    (hlast : ts = init ++ [last]) (hclosed : ∀ t ∈ ts, t.isClosed = true) :
    ∃ piece after, Span.Covers ⟨first.span.start, last.span.stop⟩ source.toList piece after ∧
      ts = (tokenize (String.ofList piece)).map (Token.shift first.span.start) := by
  -- The text is cut in front of the first token, and then behind the last.
  have hfrom : Lexer.tokensFrom 0 source.toList = front ++ first :: (rest ++ back) := by
    rw [← List.cons_append, ← hfirst]
    exact h
  obtain ⟨before, text, htext, hstart, hrest⟩ := Lexer.exists_rest_of_tokens hfrom
  rw [← List.cons_append, ← hfirst, hlast, List.append_assoc] at hrest
  rw [hlast] at hclosed
  obtain ⟨piece, after, rfl, hstop, hpiece⟩ := Lexer.exists_piece_of_tokens hrest hclosed
  refine ⟨piece, after, ⟨before, htext, ?_⟩, ?_⟩
  · rw [hstop, hstart, Nat.zero_add]
  · rw [tokenize, String.toList_ofList, ← Lexer.tokensFrom_shift, Nat.zero_add, hpiece, hlast]

/-- The forms that are completed while a program is read are those of its derivations. -/
theorem exists_completed_eq {source : String} {forms : List Node} (h : read source = .ok forms) :
    ∃ ds, Derivation.tokensOf ds = tokenize source ∧ Derivation.valuesOf ds = forms ∧
      Reader.completed .initial (tokenize source) =
        (Derivation.within ds).map Derivation.value := by
  obtain ⟨ds, htokens, hvalues⟩ := Reader.exists_tokensOf_of_readTokens h
  refine ⟨ds, htokens, hvalues, ?_⟩
  rw [← htokens]
  exact Derivation.completed_tokensOf (fun d _ ↦ d.completes) (.inl rfl)

/-- The forms of a program are completed while it is read. -/
theorem subset_completed {source : String} {forms : List Node} (h : read source = .ok forms) :
    forms ⊆ Reader.completed .initial (tokenize source) := by
  obtain ⟨ds, -, rfl, hcompleted⟩ := exists_completed_eq h
  rw [hcompleted]
  intro n hn
  obtain ⟨d, hd, rfl⟩ := Derivation.mem_valuesOf hn
  exact List.mem_map_of_mem (Derivation.subset_within ds hd)

/-- **The text of a form is that form.** Whatever form is completed while a text is read, be it one
of the forms of the text or one inside them, its span covers a piece of the text, and this piece is
read as that one form, only nearer to the beginning. -/
theorem read_slice {source : String} {forms : List Node} (h : read source = .ok forms) :
    forms ⊆ Reader.completed .initial (tokenize source) ∧
      ∀ n ∈ Reader.completed .initial (tokenize source), ∃ piece after m,
        n.span.Covers source.toList piece after ∧ read (String.ofList piece) = .ok [m] ∧
          m.shift n.span.start = n := by
  refine ⟨subset_completed h, fun n hn ↦ ?_⟩
  obtain ⟨ds, htokens, -, hcompleted⟩ := exists_completed_eq h
  rw [hcompleted] at hn
  obtain ⟨e, he, rfl⟩ := List.mem_map.mp hn
  obtain ⟨front, back, htogether⟩ := Derivation.infix_tokensOf (fun d _ ↦ d.surrounds) e he
  rw [htokens] at htogether
  have hspan : e.value.span = ⟨e.head.span.start, e.last.span.stop⟩ :=
    e.span_value ((ordered_tokenize source).sublist (List.IsInfix.sublist ⟨front, back, htogether⟩))
  have hclosed : ∀ t ∈ e.tokens, t.isClosed = true := fun t ht ↦
    Reader.isClosed_of_steps (Reader.steps_of_readTokens h) t
      (htogether ▸ List.mem_append_left _ (List.mem_append_right _ ht))
  rw [List.append_assoc] at htogether
  obtain ⟨init, hlast⟩ := e.exists_tokens_eq_append_last
  obtain ⟨piece, after, hcovers, hmoved⟩ :=
    exists_slice_of_tokens htogether.symm e.tokens_eq_cons hlast hclosed
  -- The tokens of the form give the form, so where the piece begins it is read as that form.
  have hvalue : readTokens e.tokens = .ok [e.value] := by
    have hrow := Reader.readTokens_tokensOf [e]
    rwa [Derivation.tokensOf_singleton, Derivation.valuesOf_singleton] at hrow
  rw [hmoved, Reader.readTokens_shift] at hvalue
  rw [hspan]
  rcases hread : readTokens (tokenize (String.ofList piece)) with cause | ms
  · rw [hread] at hvalue
    cases hvalue
  · rw [hread] at hvalue
    obtain ⟨m, rfl, hm⟩ := List.map_eq_singleton_iff.mp (Except.ok.inj hvalue)
    exact ⟨piece, after, m, hcovers, hread, hm⟩

/-- While `(a 'b)` is read the quotation is completed, and the text under its span is read as it. -/
theorem read_slice_mark : ∃ n, n = .tagged "quote" ⟨3, 4⟩ (.symbol "b" ⟨4, 5⟩) ∧
    n ∈ Reader.completed .initial (tokenize "(a 'b)") ∧ ∃ piece after m,
      n.span.Covers "(a 'b)".toList piece after ∧ read (String.ofList piece) = .ok [m] ∧
        m.shift n.span.start = n := by
  have htokens : tokenize "(a 'b)" = [⟨.leftParen, "(", ⟨0, 1⟩⟩, ⟨.symbol, "a", ⟨1, 2⟩⟩,
      ⟨.quote, "'", ⟨3, 4⟩⟩, ⟨.symbol, "b", ⟨4, 5⟩⟩, ⟨.rightParen, ")", ⟨5, 6⟩⟩] := by
    decide +kernel
  have hread : read "(a 'b)" = .ok [.ofList [.symbol "a" ⟨1, 2⟩,
      .tagged "quote" ⟨3, 4⟩ (.symbol "b" ⟨4, 5⟩)] ⟨0, 6⟩] := by
    rw [read, htokens]
    rfl
  have hcompleted : .tagged "quote" ⟨3, 4⟩ (.symbol "b" ⟨4, 5⟩) ∈
      Reader.completed .initial (tokenize "(a 'b)") := by
    rw [htokens]
    exact List.mem_cons_of_mem _ (List.mem_cons_of_mem _ List.mem_cons_self)
  exact ⟨_, rfl, hcompleted, (read_slice hread).2 _ hcompleted⟩

end MiniLisp
