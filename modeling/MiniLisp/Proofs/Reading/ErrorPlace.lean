import MiniLisp.Proofs.Reading.Spans

/-!
# Where reading fails

A text is rejected as soon as a token comes that cannot go on. What the error shows is not always
that token: a form that has no place in its list is shown as a whole, and a dot without a tail where
it stands. But it never begins behind the token, as all that is open was opened before it
(`Frame.Before`), so the error is found at that token or further to the left
(`exists_span_of_steps_error`). Only a text that ends too early has no place to show.
-/

namespace MiniLisp

namespace Reader

/-- A list begins at an offset at the latest, and so does a dot in it that has no tail yet. -/
def Frame.Before (limit : Nat) : Frame → Prop
  | .list start _ (.waiting span) => start ≤ limit ∧ span.start ≤ limit
  | .list start _ _ => start ≤ limit
  | .mark _ _ => True

theorem Frame.Before.mono {limit limit' : Nat} {f : Frame} (h : f.Before limit)
    (hle : limit ≤ limit') : f.Before limit' := by
  match f, h with
  | .list _ _ (.waiting _), h => exact ⟨Nat.le_trans h.1 hle, Nat.le_trans h.2 hle⟩
  | .list _ _ .absent, h => exact Nat.le_trans h hle
  | .list _ _ (.filled _), h => exact Nat.le_trans h hle
  | .mark _ _, _ => exact trivial

theorem Frame.Before.start_le {limit start : Nat} {items : List Node} {dot : DotState}
    (h : (Frame.list start items dot).Before limit) : start ≤ limit := by
  cases dot with
  | waiting => exact h.1
  | _ => exact h

/-- All that is open begins at an offset at the latest, and so does the place of an error. -/
def Before (limit : Nat) : Except ReadError State → Prop
  | .ok st => ∀ f ∈ st.stack, f.Before limit
  | .error cause => ∃ span, cause.span? = some span ∧ span.start ≤ limit

variable {limit : Nat}

/-- A token that is no atom is at fault itself. -/
theorem span?_of_atom_error {t : Token} {cause : ReadError} (h : atom t = .error cause) :
    cause.span? = some t.span := by
  unfold atom at h
  split at h
  case h_4 =>
    dsimp only at h
    split at h
    · cases h
    · cases h; rfl
  all_goals first
    | cases h; done
    | cases h; rfl
    | split at h
      all_goals first
        | cases h; done
        | cases h; rfl

/-! ### One token -/

theorem push_before (forms : List Node) {n : Node} (hn : n.span.start ≤ limit)
    {stack : List Frame} (h : ∀ f ∈ stack, f.Before limit) : Before limit (push forms n stack) := by
  induction stack generalizing n with
  | nil => exact nofun
  | cons f rest ih =>
    obtain ⟨hf, hrest⟩ := List.forall_mem_cons.mp h
    cases f with
    | mark m span =>
      -- The form of the mark begins where the mark does, or where `n` does.
      have hmin : min span.start n.span.start ≤ limit := Nat.le_trans (Nat.min_le_right _ _) hn
      refine ih ?_ hrest
      rw [Node.tagged, Node.ofList, Node.span_listWithTail]
      exact hmin
    | list start items dot =>
      have hstart : start ≤ limit := hf.start_le
      cases dot with
      | absent => exact List.forall_mem_cons.mpr ⟨hstart, hrest⟩
      | waiting => exact List.forall_mem_cons.mpr ⟨hstart, hrest⟩
      | filled => exact ⟨n.span, rfl, hn⟩

theorem dot_before {st : State} (h : ∀ f ∈ st.stack, f.Before limit) {span : Span}
    (hspan : span.start ≤ limit) : Before limit (dot st span) := by
  obtain ⟨stack, forms⟩ := st
  unfold dot
  split
  · next start n items rest hstack =>
    obtain rfl : stack = _ := hstack
    obtain ⟨hf, hrest⟩ := List.forall_mem_cons.mp h
    exact List.forall_mem_cons.mpr ⟨⟨hf, hspan⟩, hrest⟩
  · exact ⟨span, rfl, hspan⟩

theorem close_before {st : State} (h : ∀ f ∈ st.stack, f.Before limit) {t : Token}
    (ht : t.span.start ≤ limit) : Before limit (close st t) := by
  obtain ⟨stack, forms⟩ := st
  match stack, h with
  | [], _ => exact ⟨t.span, rfl, ht⟩
  | .mark _ _ :: _, _ => exact ⟨t.span, rfl, ht⟩
  | .list start items dot :: rest, h =>
    obtain ⟨hf, hrest⟩ := List.forall_mem_cons.mp h
    have hstart : start ≤ limit := hf.start_le
    cases dot with
    | absent =>
      rw [close_absent]
      refine push_before forms ?_ hrest
      rw [Node.ofList, Node.span_listWithTail]
      exact hstart
    | waiting span => exact ⟨span, rfl, hf.2⟩
    | filled tail =>
      refine push_before forms ?_ hrest
      rw [Node.span_listWithTail]
      exact hstart

/-- What a token opens or finds fault with begins at that token at the latest. -/
theorem step_before {st : State} {t : Token} (h : ∀ f ∈ st.stack, f.Before t.span.start) :
    Before t.span.start (step st t) := by
  have opened (f : Frame) (hf : f.Before t.span.start) :
      Before t.span.start (.ok (st.openFrame f)) := List.forall_mem_cons.mpr ⟨hf, h⟩
  unfold step
  split
  · exact opened _ (Nat.le_refl _)
  · exact close_before h (Nat.le_refl _)
  · exact dot_before h (Nat.le_refl _)
  · exact opened _ trivial
  · exact opened _ trivial
  · exact opened _ trivial
  · exact opened _ trivial
  · cases e : atom t with
    | ok n =>
      obtain ⟨a, rfl, -⟩ := exists_atom_of_ok e
      exact push_before st.forms (Nat.le_refl _) h
    | error cause => exact ⟨t.span, span?_of_atom_error e, Nat.le_refl _⟩

/-! ### All tokens -/

/-- **Reading fails at a token.** If the tokens stand one behind the other, and what is open was
opened before them, then an error shows a place that begins at one of the tokens or before it. -/
theorem exists_span_of_steps_error {st : State} {ts : List Token}
    (hts : ts.Pairwise fun t u ↦ t.span.start ≤ u.span.start)
    (h : ∀ t ∈ ts, ∀ f ∈ st.stack, f.Before t.span.start) {cause : ReadError}
    (herror : steps st ts = .error cause) :
    ∃ t ∈ ts, ∃ span, cause.span? = some span ∧ span.start ≤ t.span.start := by
  induction ts generalizing st with
  | nil => cases herror
  | cons t ts ih =>
    obtain ⟨hfirst, hrest⟩ := List.pairwise_cons.mp hts
    have hstep := step_before (h t List.mem_cons_self)
    rw [steps] at herror
    cases e : step st t with
    | ok st' =>
      rw [e] at herror hstep
      have hlater : ∀ u ∈ ts, ∀ f ∈ st'.stack, f.Before u.span.start :=
        fun u hu f hf ↦ (hstep f hf).mono (hfirst u hu)
      obtain ⟨u, hu, hspan⟩ := ih hrest hlater herror
      exact ⟨u, List.mem_cons_of_mem _ hu, hspan⟩
    | error found =>
      rw [e] at herror hstep
      cases herror
      exact ⟨t, List.mem_cons_self, hstep⟩

end Reader

/-! ### Texts -/

/-- The tokens of a text begin one behind the other. -/
theorem pairwise_start_lt_tokenize (source : String) :
    (tokenize source).Pairwise fun t u ↦ t.span.start < u.span.start := by
  have htiling : Lexer.Tiling (byteLength []) source.toList (tokenize source) :=
    Lexer.tiling_tokenize source
  refine htiling.pairwise.imp_of_mem fun ht _ hle ↦ Nat.lt_of_lt_of_le ?_ hle
  obtain ⟨htext, after, hcovers⟩ := htiling.covers ht
  exact hcovers.start_lt_stop htext

/-- A text whose tokens are not all accepted is rejected with a place that begins at one of them or
before it. -/
theorem exists_span_of_error {source : String} {before after : List Token} {cause : ReadError}
    (htokens : tokenize source = before ++ after)
    (h : Reader.steps .initial before = .error cause) :
    read source = .error cause ∧
      ∃ t ∈ before, ∃ span, cause.span? = some span ∧ span.start ≤ t.span.start := by
  have hall : Reader.steps .initial (tokenize source) = .error cause := by
    rw [htokens, Reader.steps_append, h]
    rfl
  have hordered : before.Pairwise fun t u ↦ t.span.start ≤ u.span.start := by
    have hpairwise := pairwise_start_lt_tokenize source
    rw [htokens] at hpairwise
    exact (List.pairwise_append.mp hpairwise).1.imp Nat.le_of_lt
  refine ⟨?_, Reader.exists_span_of_steps_error hordered
    (fun _ _ _ hf ↦ absurd hf List.not_mem_nil) h⟩
  rw [read, readTokens, hall]

/-- Only a text whose tokens are all accepted ends too early. -/
theorem exists_steps_of_unexpectedEnd {source : String} {missing : Missing}
    (h : read source = .error (.unexpectedEnd missing)) :
    ∃ st, Reader.steps .initial (tokenize source) = .ok st := by
  cases e : Reader.steps .initial (tokenize source) with
  | ok st => exact ⟨st, rfl⟩
  | error cause =>
    obtain ⟨hread, t, -, span, hspan, -⟩ :=
      exists_span_of_error (List.append_nil (tokenize source)).symm e
    obtain rfl : cause = .unexpectedEnd missing := Except.error.inj (hread.symm.trans h)
    cases hspan

end MiniLisp
