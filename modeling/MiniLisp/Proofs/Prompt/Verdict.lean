import MiniLisp.Prompt.Brackets
import MiniLisp.Proofs.Reading.ErrorPlace

/-!
# The verdict on a line and the reader

The prompt counts brackets to tell whether a line can be read yet, and the reader keeps a stack in
which the open lists stand among marks. As long as the reader accepts the tokens, its open lists are
what the prompt has counted (`verdictFrom_steps`): marks open and end without a bracket, and a list
is taken off the stack by its closing bracket only.

The reader may give up where the count goes on, at a misplaced dot or an atom that cannot be read.
So the two are compared from either side (`verdict_agrees_read`): a text that is read is complete to
the prompt, and one with a bracket too many is rejected at that bracket, or before it.
-/

namespace MiniLisp

open Prompt

namespace Prompt

/-! ### The count of brackets -/

theorem verdictFrom_leftParen {t : Token} (h : t.kind = .leftParen) (depth : Nat)
    (ts : List Token) : verdictFrom depth (t :: ts) = verdictFrom (depth + 1) ts := by
  simp only [verdictFrom, h]

theorem verdictFrom_rightParen {t : Token} (h : t.kind = .rightParen) (depth : Nat)
    (ts : List Token) : verdictFrom (depth + 1) (t :: ts) = verdictFrom depth ts := by
  simp only [verdictFrom, h]

/-- A token that neither opens nor closes anything does not count. -/
theorem verdictFrom_of_other {t : Token} (hleft : t.kind ≠ .leftParen)
    (hright : t.kind ≠ .rightParen) (hstring : t.kind ≠ .openString) (depth : Nat)
    (ts : List Token) : verdictFrom depth (t :: ts) = verdictFrom depth ts := by
  cases hkind : t.kind <;> simp_all [verdictFrom]

/-- A bracket is unmatched where all lists before it are closed. -/
theorem exists_unmatched {depth offset : Nat} {ts : List Token}
    (h : verdictFrom depth ts = .unmatched offset) :
    ∃ before t after, ts = before ++ t :: after ∧ t.kind = .rightParen ∧ t.span.start = offset ∧
      ∀ rest, verdictFrom depth (before ++ rest) = verdictFrom 0 rest := by
  induction ts generalizing depth with
  | nil =>
    simp only [verdictFrom] at h
    split at h
    · cases h
    · cases h
  | cons t ts ih =>
    -- A token that leaves the verdict to those behind it is one more in front of the bracket.
    have later {next : Nat}
        (hfirst : ∀ rest, verdictFrom depth (t :: rest) = verdictFrom next rest) :
        ∃ before u after, t :: ts = before ++ u :: after ∧ u.kind = .rightParen ∧
          u.span.start = offset ∧
          ∀ rest, verdictFrom depth (before ++ rest) = verdictFrom 0 rest := by
      rw [hfirst] at h
      obtain ⟨before, u, after, rfl, hkind, hstart, hbefore⟩ := ih h
      refine ⟨t :: before, u, after, rfl, hkind, hstart, fun rest ↦ ?_⟩
      rw [List.cons_append, hfirst, hbefore]
    by_cases hleft : t.kind = .leftParen
    · exact later (verdictFrom_leftParen hleft depth)
    by_cases hright : t.kind = .rightParen
    · cases depth with
      | zero =>
        simp only [verdictFrom, hright, Verdict.unmatched.injEq] at h
        exact ⟨[], t, ts, rfl, hright, h, fun _ ↦ rfl⟩
      | succ depth => exact later (verdictFrom_rightParen hright depth)
    by_cases hstring : t.kind = .openString
    · simp only [verdictFrom, hstring] at h
      cases h
    · exact later (verdictFrom_of_other hleft hright hstring depth)

end Prompt

namespace Reader

/-- The number of lists among the open constructs. -/
def listsIn : List Frame → Nat
  | [] => 0
  | .list _ _ _ :: rest => listsIn rest + 1
  | .mark _ _ :: rest => listsIn rest

/-- The number of lists that are open. -/
def State.openLists (st : State) : Nat := listsIn st.stack

/-! ### One token -/

/-- A form that is finished leaves the lists around it open. -/
theorem openLists_push {forms : List Node} {n : Node} {stack : List Frame} {st : State}
    (h : push forms n stack = .ok st) : st.openLists = listsIn stack := by
  induction stack generalizing n with
  | nil =>
    cases h
    rfl
  | cons f rest ih =>
    cases f with
    | mark m span => exact ih h
    | list start items dot =>
      cases dot with
      | absent =>
        cases h
        rfl
      | waiting =>
        cases h
        rfl
      | filled => cases h

theorem openLists_dot {st st' : State} {span : Span} (h : dot st span = .ok st') :
    st'.openLists = st.openLists := by
  obtain ⟨stack, forms⟩ := st
  unfold dot at h
  split at h
  · next start n items rest hstack =>
    obtain rfl : stack = _ := hstack
    cases h
    rfl
  · cases h

/-- A bracket closes one list. -/
theorem openLists_close {st st' : State} {t : Token} (h : close st t = .ok st') :
    st.openLists = st'.openLists + 1 := by
  obtain ⟨stack, forms⟩ := st
  match stack, h with
  | [], h => cases h
  | .mark _ _ :: _, h => cases h
  | .list start items dot :: rest, h =>
    show listsIn rest + 1 = st'.openLists + 1
    cases dot with
    | absent =>
      rw [close_absent] at h
      rw [openLists_push h]
    | waiting => cases h
    | filled => rw [openLists_push h]

/-- Where no list is open there is nothing to close. -/
theorem close_of_openLists_eq_zero {st : State} (h : st.openLists = 0) (t : Token) :
    close st t = .error (.unexpectedToken t .expression) := by
  obtain ⟨stack, forms⟩ := st
  cases stack with
  | nil => rfl
  | cons f rest =>
    cases f with
    | mark => rfl
    | list => exact absurd h (Nat.succ_ne_zero _)

/-- **A token that is accepted changes the open lists as the prompt counts them.** -/
theorem verdictFrom_step {st st' : State} {t : Token} (h : step st t = .ok st') (ts : List Token) :
    verdictFrom st.openLists (t :: ts) = verdictFrom st'.openLists ts := by
  -- What leaves the lists as they are is a token that the prompt does not count.
  have other (hkind : t.kind ≠ .leftParen ∧ t.kind ≠ .rightParen ∧ t.kind ≠ .openString)
      (hsame : st'.openLists = st.openLists) :
      verdictFrom st.openLists (t :: ts) = verdictFrom st'.openLists ts := by
    rw [verdictFrom_of_other hkind.1 hkind.2.1 hkind.2.2, hsame]
  unfold step at h
  split at h
  · next hkind =>
    cases h
    exact verdictFrom_leftParen hkind _ ts
  · next hkind =>
    rw [openLists_close h, verdictFrom_rightParen hkind]
  · next hkind => exact other (by simp [hkind]) (openLists_dot h)
  · next hkind =>
    cases h
    exact other (by simp [hkind]) rfl
  · next hkind =>
    cases h
    exact other (by simp [hkind]) rfl
  · next hkind =>
    cases h
    exact other (by simp [hkind]) rfl
  · next hkind =>
    cases h
    exact other (by simp [hkind]) rfl
  · next hleft hright _ _ _ _ _ =>
    cases e : atom t with
    | error cause =>
      rw [e] at h
      cases h
    | ok n =>
      rw [e] at h
      have hstring : t.kind ≠ .openString := by
        intro hkind
        rw [atom, hkind] at e
        cases e
      exact other ⟨hleft, hright, hstring⟩ (openLists_push h)

/-! ### All tokens -/

/-- **What the reader accepts, the prompt counts.** After tokens that are accepted, the prompt goes
on with as many open lists as the reader has. -/
theorem verdictFrom_steps {st st' : State} {before : List Token} (h : steps st before = .ok st')
    (rest : List Token) :
    verdictFrom st.openLists (before ++ rest) = verdictFrom st'.openLists rest := by
  induction before generalizing st with
  | nil =>
    cases h
    rfl
  | cons t before ih =>
    obtain ⟨next, hstep, hsteps⟩ := exists_of_steps_cons h
    rw [List.cons_append, verdictFrom_step hstep, ih hsteps]

end Reader

/-! ### The prompt and the reader -/

/-- The verdict on a text whose tokens are all accepted only depends on whether a list is open. -/
theorem verdict_of_steps {source : String} {st : Reader.State}
    (h : Reader.steps .initial (tokenize source) = .ok st) :
    verdict source = if st.openLists = 0 then .complete else .incomplete := by
  have hcount := Reader.verdictFrom_steps h []
  rwa [List.append_nil] at hcount

/-- What is read is complete to the prompt. -/
theorem verdict_of_read {source : String} {forms : List Node} (h : read source = .ok forms) :
    verdict source = .complete := verdict_of_steps (Reader.steps_of_readTokens h)

/-- A text with an unmatched bracket is rejected at that bracket if the tokens before it are
accepted, and else before it. -/
theorem read_of_unmatched {source : String} {offset : Nat}
    (h : verdict source = .unmatched offset) :
    ∃ before t after, tokenize source = before ++ t :: after ∧ t.kind = .rightParen ∧
      t.span.start = offset ∧
      ((∃ st, Reader.steps .initial before = .ok st) ∧
          read source = .error (.unexpectedToken t .expression) ∨
        ∃ cause span, Reader.steps .initial before = .error cause ∧ read source = .error cause ∧
          cause.span? = some span ∧ span.start < offset) := by
  obtain ⟨before, t, after, htokens, hkind, rfl, hcount⟩ := exists_unmatched h
  refine ⟨before, t, after, htokens, hkind, rfl, ?_⟩
  cases e : Reader.steps .initial before with
  | ok st =>
    -- The prompt has counted no open list, so the reader has none.
    have hopen : st.openLists = 0 := by
      have hsame : verdictFrom 0 (before ++ []) = verdictFrom st.openLists [] :=
        Reader.verdictFrom_steps e []
      rw [hcount] at hsame
      by_contra hne
      simp [verdictFrom, hne] at hsame
    left
    refine ⟨⟨st, rfl⟩, ?_⟩
    have hstep : Reader.step st t = .error (.unexpectedToken t .expression) := by
      rw [Reader.step_of_rightParen hkind, Reader.close_of_openLists_eq_zero hopen]
    have hall : Reader.steps .initial (tokenize source) =
        .error (.unexpectedToken t .expression) := by
      rw [htokens, Reader.steps_append, e]
      show Reader.steps st (t :: after) = _
      rw [Reader.steps, hstep]
    rw [read, readTokens, hall]
  | error cause =>
    obtain ⟨hread, u, hu, span, hspan, hle⟩ := exists_span_of_error htokens e
    have hlt : u.span.start < t.span.start := by
      have hpairwise := pairwise_start_lt_tokenize source
      rw [htokens] at hpairwise
      exact (List.pairwise_append.mp hpairwise).2.2 u hu t List.mem_cons_self
    exact .inr ⟨cause, span, rfl, hread, hspan, Nat.lt_of_le_of_lt hle hlt⟩

/-- **The prompt and the reader agree.** What is read is complete to the prompt. If a closing
bracket is unmatched to the prompt, then the text is rejected with a place that begins at that
bracket or before it; the bracket itself is the unexpected token if the tokens before it are
accepted, and otherwise the place begins before it. A text that ends too early while a list is open
is incomplete to the prompt, and what is incomplete is not read. -/
theorem verdict_agrees_read (source : String) :
    (∀ forms, read source = .ok forms → verdict source = .complete) ∧
    (∀ offset, verdict source = .unmatched offset →
      ∃ before t after, tokenize source = before ++ t :: after ∧ t.kind = .rightParen ∧
        t.span.start = offset ∧
        ∃ cause span, read source = .error cause ∧ cause.span? = some span ∧
          span.start ≤ offset ∧
          ((∃ st, Reader.steps .initial before = .ok st) →
            cause = .unexpectedToken t .expression) ∧
          (cause = .unexpectedToken t .expression ∨ span.start < offset)) ∧
    (∀ missing, read source = .error (.unexpectedEnd missing) →
      ∃ st, Reader.steps .initial (tokenize source) = .ok st ∧
        (0 < st.openLists → verdict source = .incomplete)) ∧
    (verdict source = .incomplete → ∃ cause, read source = .error cause) := by
  refine ⟨fun forms ↦ verdict_of_read, fun offset h ↦ ?_, fun missing h ↦ ?_, fun h ↦ ?_⟩
  · obtain ⟨before, t, after, htokens, hkind, hstart, ⟨-, hread⟩ | hearlier⟩ := read_of_unmatched h
    · exact ⟨before, t, after, htokens, hkind, hstart, _, t.span, hread, rfl,
        Nat.le_of_eq hstart, fun _ ↦ rfl, .inl rfl⟩
    · obtain ⟨cause, span, herror, hread, hspan, hlt⟩ := hearlier
      refine ⟨before, t, after, htokens, hkind, hstart, cause, span, hread, hspan,
        Nat.le_of_lt hlt, ?_, .inr hlt⟩
      rintro ⟨st, hst⟩
      cases herror.symm.trans hst
  · obtain ⟨st, hst⟩ := exists_steps_of_unexpectedEnd h
    refine ⟨st, hst, fun hopen ↦ ?_⟩
    rw [verdict_of_steps hst, if_neg (Nat.ne_of_gt hopen)]
  · cases hread : read source with
    | error cause => exact ⟨cause, rfl⟩
    | ok forms => cases h.symm.trans (verdict_of_read hread)

/-- A bracket alone is rejected where it stands, and a list that is not closed is incomplete. -/
theorem verdict_agrees_read_brackets :
    (∃ cause span, read ")" = .error cause ∧ cause.span? = some span ∧ span.start ≤ 0) ∧
      verdict "(a" = .incomplete := by
  obtain ⟨-, hunmatched, -, -⟩ := verdict_agrees_read ")"
  obtain ⟨-, -, hend, -⟩ := verdict_agrees_read "(a"
  constructor
  · obtain ⟨-, -, -, -, -, -, cause, span, hread, hspan, hle, -, -⟩ :=
      hunmatched 0 (by decide +kernel)
    exact ⟨cause, span, hread, hspan, hle⟩
  · have htokens : tokenize "(a" = [⟨.leftParen, "(", ⟨0, 1⟩⟩, ⟨.symbol, "a", ⟨1, 2⟩⟩] := by
      decide +kernel
    have hread : read "(a" = .error (.unexpectedEnd .closing) := by
      rw [read, htokens]
      rfl
    obtain ⟨st, hst, hverdict⟩ := hend .closing hread
    rw [htokens] at hst
    cases hst
    exact hverdict Nat.one_pos

end MiniLisp
