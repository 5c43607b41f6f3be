import MiniLisp.Proofs.Reading.Derivation
import Mathlib.Logic.Function.Defs

/-!
# The reader accepts the grammar

The reader works with a stack of open constructs and knows nothing of derivations. Two facts join
them.

* The tokens of a form, read in any state, have the effect of pushing the value of the form
  (`steps_tokens`), whatever is open and whatever was read before.
* The tokens read so far are accounted for by the stack (`Held`): every open construct holds
  derivations of its elements and of its tail, and the forms that are complete have derivations.
  Each token keeps this (`Held.step`), so when nothing is open the tokens are those of a row of
  forms.

Together they say that the reader gives exactly the values of the derivations of its tokens, of
which there is at most one (`readTokens_eq_ok_iff`).
-/

namespace MiniLisp

namespace Reader

open MiniLisp.Derivation (tokensOf valuesOf)

/-! ### From a derivation to a run -/

theorem steps_append (st : State) (ts us : List Token) :
    steps st (ts ++ us) = steps st ts >>= fun st' ↦ steps st' us := by
  induction ts generalizing st with
  | nil => rfl
  | cons t ts ih =>
    rw [List.cons_append, steps, steps]
    cases step st t with
    | ok st' => exact ih st'
    | error e => rfl

/-- Tokens are accepted one after the other. -/
theorem exists_of_steps_cons {st st' : State} {t : Token} {ts : List Token}
    (h : steps st (t :: ts) = .ok st') :
    ∃ next, step st t = .ok next ∧ steps next ts = .ok st' := by
  rw [steps] at h
  rcases hstep : step st t with e | next
  · rw [hstep] at h
    cases h
  · rw [hstep] at h
    exact ⟨next, rfl, h⟩

theorem steps_singleton (st : State) (t : Token) : steps st [t] = step st t := by
  rw [steps]
  cases step st t <;> rfl

/-- A token of which an atom can be made has the effect of pushing the atom. -/
theorem step_of_atom {t : Token} {n : Node} (h : atom t = .ok n) (st : State) :
    step st t = push st.forms n st.stack := by
  obtain ⟨hstart, hright, hdot⟩ := Derivation.kind_of_atom h
  unfold step
  split
  · next hk => rw [hk] at hstart; cases hstart
  · next hk => exact absurd hk hright
  · next hk => exact absurd hk hdot
  · next hk => rw [hk] at hstart; cases hstart
  · next hk => rw [hk] at hstart; cases hstart
  · next hk => rw [hk] at hstart; cases hstart
  · next hk => rw [hk] at hstart; cases hstart
  · rw [h]; rfl

theorem step_of_leftParen {t : Token} (h : t.kind = .leftParen) (st : State) :
    step st t = .ok (st.openFrame (.list t.span.start [] .absent)) := by
  rw [step, h]

theorem step_of_rightParen {t : Token} (h : t.kind = .rightParen) (st : State) :
    step st t = close st t := by
  rw [step, h]

theorem step_of_dot {t : Token} (h : t.kind = .dot) (st : State) :
    step st t = dot st t.span := by
  rw [step, h]

theorem step_of_mark {t : Token} {mark : QuoteMark} (h : t.kind = mark.tokenKind) (st : State) :
    step st t = .ok (st.openFrame (.mark mark t.span)) := by
  rw [step, h]
  cases mark <;> rfl

/-- A list is closed in the same way whether it has elements or not. -/
theorem close_absent (forms items : List Node) (start : Nat) (stack : List Frame) (t : Token) :
    close ⟨.list start items .absent :: stack, forms⟩ t =
      push forms (.ofList items.reverse ⟨start, t.span.stop⟩) stack := by
  cases items <;> rfl

/-- A dot is accepted behind an element. -/
theorem step_dot_of_ne_nil {t : Token} (ht : t.kind = .dot) {items : List Node} (h : items ≠ [])
    (start : Nat) (stack : List Frame) (forms : List Node) :
    step ⟨.list start items .absent :: stack, forms⟩ t =
      .ok ⟨.list start items (.waiting t.span) :: stack, forms⟩ := by
  rw [step_of_dot ht]
  rcases items with - | ⟨item, items⟩
  · exact absurd rfl h
  · rfl

/-- Reading the tokens of a form pushes its value. -/
def Pushes (d : Derivation) : Prop :=
  ∀ st : State, steps st d.tokens = push st.forms d.value st.stack

/-- The elements of a list are read into the list on top of the stack. -/
theorem steps_items {ds : List Derivation} (hds : ∀ d ∈ ds, Pushes d) (forms : List Node)
    (start : Nat) (stack : List Frame) : ∀ items : List Node,
      steps ⟨.list start items .absent :: stack, forms⟩ (tokensOf ds) =
        .ok ⟨.list start ((valuesOf ds).reverse ++ items) .absent :: stack, forms⟩ := by
  induction ds with
  | nil => intro items; rfl
  | cons d ds ih =>
    intro items
    obtain ⟨hd, hds⟩ := List.forall_mem_cons.1 hds
    rw [tokensOf, steps_append, hd]
    show steps ⟨.list start (d.value :: items) .absent :: stack, forms⟩ (tokensOf ds) = _
    rw [ih hds, valuesOf, List.reverse_cons, List.append_assoc, List.singleton_append]

theorem steps_tokens (d : Derivation) : Pushes d := by
  induction d with
  | atom token value reads =>
    intro st
    rw [Derivation.tokens, steps_singleton, step_of_atom reads, Derivation.value]
  | sugar mark token form marks ih =>
    intro st
    rw [Derivation.tokens, steps, step_of_mark marks]
    exact ih (st.openFrame (.mark mark token.span))
  | list opening items closing opens closes ih =>
    intro st
    rw [Derivation.tokens, steps, step_of_leftParen opens]
    show steps ⟨.list _ [] .absent :: st.stack, st.forms⟩ (tokensOf items ++ [closing]) = _
    rw [steps_append, steps_items ih]
    show steps ⟨.list _ _ .absent :: st.stack, st.forms⟩ [closing] = _
    rw [steps_singleton, step_of_rightParen closes, close_absent, List.append_nil,
      List.reverse_reverse, Derivation.value]
  | dotted opening first items dot tail closing opens dots closes ihfirst ihitems ihtail =>
    intro st
    have hall : ∀ d ∈ first :: items, Pushes d := List.forall_mem_cons.2 ⟨ihfirst, ihitems⟩
    have hnonempty : (valuesOf (first :: items)).reverse ≠ [] := by simp [valuesOf]
    rw [Derivation.tokens, steps, step_of_leftParen opens]
    show steps ⟨.list _ [] .absent :: st.stack, st.forms⟩
      (tokensOf (first :: items) ++ dot :: (tail.tokens ++ [closing])) = _
    rw [steps_append, steps_items hall, List.append_nil]
    show steps ⟨.list _ _ .absent :: st.stack, st.forms⟩ (dot :: (tail.tokens ++ [closing])) = _
    rw [steps, step_dot_of_ne_nil dots hnonempty]
    show steps ⟨.list _ _ (.waiting dot.span) :: st.stack, st.forms⟩ (tail.tokens ++ [closing]) = _
    rw [steps_append, ihtail]
    show steps ⟨.list _ _ (.filled tail.value) :: st.stack, st.forms⟩ [closing] = _
    rw [steps_singleton, step_of_rightParen closes]
    show push st.forms (.listWithTail (valuesOf (first :: items)).reverse.reverse tail.value
      ⟨opening.span.start, closing.span.stop⟩) st.stack = _
    rw [List.reverse_reverse, valuesOf, Derivation.value]

/-- The tokens of a row of forms, read where nothing is open, give these forms. -/
theorem steps_tokensOf (ds : List Derivation) (forms : List Node) :
    steps ⟨[], forms⟩ (tokensOf ds) = .ok ⟨[], (valuesOf ds).reverse ++ forms⟩ := by
  induction ds generalizing forms with
  | nil => rfl
  | cons d ds ih =>
    rw [tokensOf, steps_append, steps_tokens]
    show steps ⟨[], d.value :: forms⟩ (tokensOf ds) = _
    rw [ih, valuesOf, List.reverse_cons, List.append_assoc, List.singleton_append]

theorem readTokens_tokensOf (ds : List Derivation) :
    readTokens (tokensOf ds) = .ok (valuesOf ds) := by
  rw [readTokens, State.initial, steps_tokensOf]
  show Except.ok (((valuesOf ds).reverse ++ []).reverse) = _
  rw [List.append_nil, List.reverse_reverse]

/-! ### From a run to a derivation -/

/-- The tokens read so far, as the open constructs and the complete forms account for them: the
outermost construct began behind the forms that are complete, and each other one behind what the
construct around it had read by then. -/
inductive Held (forms : List Node) : List Frame → List Token → Prop
  | top {ds : List Derivation} (values : valuesOf ds = forms.reverse) : Held forms [] (tokensOf ds)
  | mark {stack : List Frame} {before : List Token} (outer : Held forms stack before)
      {mark : QuoteMark} {token : Token} (marks : token.kind = mark.tokenKind) :
      Held forms (.mark mark token.span :: stack) (before ++ [token])
  | absent {stack : List Frame} {before : List Token} (outer : Held forms stack before)
      {opening : Token} (opens : opening.kind = .leftParen) {ds : List Derivation}
      {items : List Node} (values : valuesOf ds = items.reverse) :
      Held forms (.list opening.span.start items .absent :: stack)
        (before ++ opening :: tokensOf ds)
  | waiting {stack : List Frame} {before : List Token} (outer : Held forms stack before)
      {opening : Token} (opens : opening.kind = .leftParen) {first : Derivation}
      {ds : List Derivation} {items : List Node} (values : valuesOf (first :: ds) = items.reverse)
      {dot : Token} (dots : dot.kind = .dot) :
      Held forms (.list opening.span.start items (.waiting dot.span) :: stack)
        (before ++ opening :: (tokensOf (first :: ds) ++ [dot]))
  | filled {stack : List Frame} {before : List Token} (outer : Held forms stack before)
      {opening : Token} (opens : opening.kind = .leftParen) {first : Derivation}
      {ds : List Derivation} {items : List Node} (values : valuesOf (first :: ds) = items.reverse)
      {dot : Token} (dots : dot.kind = .dot) {tail : Derivation} {value : Node}
      (fills : tail.value = value) :
      Held forms (.list opening.span.start items (.filled value) :: stack)
        (before ++ opening :: (tokensOf (first :: ds) ++ dot :: tail.tokens))

/-- A form that is pushed becomes part of what it is pushed into. -/
theorem Held.push {forms : List Node} {stack : List Frame} {before : List Token}
    (h : Held forms stack before) (d : Derivation) {st : State}
    (hst : push forms d.value stack = .ok st) : Held st.forms st.stack (before ++ d.tokens) := by
  induction h generalizing d with
  | @top ds values =>
    cases hst
    rw [← Derivation.tokensOf_singleton d, ← Derivation.tokensOf_append]
    refine .top ?_
    rw [Derivation.valuesOf_append, values, Derivation.valuesOf_singleton, List.reverse_cons]
  | @mark stack before outer mark token marks ih =>
    -- The mark is complete with the form, and what it makes is pushed in turn.
    rw [List.append_assoc, List.singleton_append]
    exact ih (.sugar mark token d marks) hst
  | @absent stack before outer opening opens ds items values ih =>
    cases hst
    rw [List.append_assoc, List.cons_append, ← Derivation.tokensOf_singleton d,
      ← Derivation.tokensOf_append]
    refine .absent outer opens ?_
    rw [Derivation.valuesOf_append, values, Derivation.valuesOf_singleton, List.reverse_cons]
  | @waiting stack before outer opening opens first ds items values dot dots ih =>
    cases hst
    rw [List.append_assoc, List.cons_append, List.append_assoc, List.singleton_append]
    exact .filled outer opens values dots rfl
  | filled => cases hst

/-- A form that is complete can be read, and ends where its last token does. -/
theorem Held.close {forms : List Node} {stack : List Frame} {before : List Token}
    (h : Held forms stack before) {t : Token} (ht : t.kind = .rightParen) {st : State}
    (hst : close ⟨stack, forms⟩ t = .ok st) : Held st.forms st.stack (before ++ [t]) := by
  cases h with
  | top => cases hst
  | mark => cases hst
  | @absent stack before outer opening opens ds items values =>
    rw [close_absent, ← values] at hst
    have hlist := outer.push (.list opening ds t opens ht) hst
    rwa [List.append_assoc, List.cons_append]
  | waiting => cases hst
  | @filled stack before outer opening opens first ds items values dot dots tail value fills =>
    have hst : Reader.push forms (.listWithTail items.reverse value _) stack = .ok st := hst
    rw [← values, ← fills] at hst
    have hlist := outer.push (.dotted opening first ds dot tail t opens dots ht) hst
    rw [List.append_assoc, List.cons_append, List.append_assoc, List.cons_append]
    exact hlist

theorem Held.dot {forms : List Node} {stack : List Frame} {before : List Token}
    (h : Held forms stack before) {t : Token} (ht : t.kind = .dot) {st : State}
    (hst : dot ⟨stack, forms⟩ t.span = .ok st) : Held st.forms st.stack (before ++ [t]) := by
  cases h with
  | top => cases hst
  | mark => cases hst
  | @absent stack before outer opening opens ds items values =>
    cases items with
    | nil => cases hst
    | cons item items =>
      cases hst
      -- There is an element, so there is a first derivation for it.
      cases ds with
      | nil => simp [valuesOf] at values
      | cons first ds =>
        rw [List.append_assoc, List.cons_append]
        exact .waiting outer opens values ht
  | waiting => rename_i items _ _ _; cases items <;> cases hst
  | filled => rename_i items _ _ _ _ _ _; cases items <;> cases hst

/-- Every token keeps the account. -/
theorem Held.step {st : State} {before : List Token} (h : Held st.forms st.stack before) {t : Token}
    {st' : State} (hst : step st t = .ok st') : Held st'.forms st'.stack (before ++ [t]) := by
  unfold Reader.step at hst
  split at hst
  · next hk => cases hst; exact .absent h hk (show valuesOf [] = [].reverse from rfl)
  · next hk => exact h.close hk hst
  · next hk => exact h.dot hk hst
  · next hk => cases hst; exact h.mark (show _ = QuoteMark.tokenKind .quote from hk)
  · next hk => cases hst; exact h.mark (show _ = QuoteMark.tokenKind .quasiquote from hk)
  · next hk => cases hst; exact h.mark (show _ = QuoteMark.tokenKind .unquote from hk)
  · next hk => cases hst; exact h.mark (show _ = QuoteMark.tokenKind .splice from hk)
  · cases hn : atom t with
    | error e => rw [hn] at hst; cases hst
    | ok n =>
      rw [hn] at hst
      exact h.push (.atom t n hn) hst

theorem Held.steps {st : State} {before : List Token} (h : Held st.forms st.stack before)
    {ts : List Token} {st' : State} (hst : steps st ts = .ok st') :
    Held st'.forms st'.stack (before ++ ts) := by
  induction ts generalizing st before with
  | nil =>
    cases hst
    rwa [List.append_nil]
  | cons t ts ih =>
    obtain ⟨next, hnext, hrest⟩ := exists_of_steps_cons hst
    have hheld := ih (h.step hnext) hrest
    rwa [List.append_assoc] at hheld

/-- Tokens are read as forms if they are accepted and leave nothing open. -/
theorem steps_of_readTokens {ts : List Token} {forms : List Node} (h : readTokens ts = .ok forms) :
    steps .initial ts = .ok ⟨[], forms.reverse⟩ := by
  rw [readTokens] at h
  rcases hst : steps .initial ts with e | ⟨stack, done⟩
  · rw [hst] at h
    cases h
  · rw [hst] at h
    rcases stack with - | ⟨frame, stack⟩
    · obtain rfl : done.reverse = forms := Except.ok.inj h
      rw [List.reverse_reverse]
    · cases frame <;> cases h

/-- Tokens that are read as forms are those of a row of forms with these values. -/
theorem exists_tokensOf_of_readTokens {ts : List Token} {forms : List Node}
    (h : readTokens ts = .ok forms) : ∃ ds, tokensOf ds = ts ∧ valuesOf ds = forms := by
  have hinitial : Held [] [] [] := .top (show valuesOf [] = [].reverse from rfl)
  have hheld : Held forms.reverse [] ([] ++ ts) := hinitial.steps (steps_of_readTokens h)
  cases hheld with
  | top values => exact ⟨_, rfl, values.trans forms.reverse_reverse⟩

end Reader

/-- **The reader accepts exactly its grammar.** Tokens are read as some forms if and only if they
are the yield of a row of derivations of which these forms are the values, and no two rows of
derivations have one yield. -/
theorem readTokens_eq_ok_iff :
    (∀ ts forms, readTokens ts = .ok forms ↔
      ∃ ds, Derivation.tokensOf ds = ts ∧ Derivation.valuesOf ds = forms) ∧
    Function.Injective Derivation.tokensOf := by
  refine ⟨fun ts forms ↦ ⟨Reader.exists_tokensOf_of_readTokens, ?_⟩, fun ds es h ↦ ?_⟩
  · rintro ⟨ds, rfl, rfl⟩
    exact Reader.readTokens_tokensOf ds
  · exact Derivation.eq_of_tokensOf_eq h

end MiniLisp
