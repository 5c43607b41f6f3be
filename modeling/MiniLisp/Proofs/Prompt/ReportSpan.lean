import MiniLisp.Proofs.Program.FirstError
import MiniLisp.Prompt.Session

/-!
# Where reported errors are

The prompt runs one text after the other in the same global scope, and it shows the errors of a text
next to that text. But what an earlier text has left in the scope, be it the body of a procedure or
of a macro or quoted data, keeps the spans that it was read with. So an error begins and ends at
places of *some* text that was run so far (`reported_error_span`), and this need not be the text it
is shown next to. If that text is shorter, then the error may even be behind its end
(`reported_error_span_past`), and it never is if no earlier text is longer.

Texts that cannot be read leave nothing behind, so their length does not matter. For the others the
spans of all that is bound are tracked from text to text, as they are in a single program.
-/

namespace MiniLisp

/-! ### All forms of a text -/

/-- All forms are run within a discipline, whatever fails: it allows every single result. -/
theorem Discipline.evaluateEach_allows {D : Discipline} (fuel : Nat) {ctx : Context}
    (hc : D.place ctx) {forms : List Node} (hforms : ∀ form ∈ forms, D.code form) {m m' : Machine}
    (hm : m.store.Holds D.value) {results : List (Except EvalError Node)}
    (h : evaluateEach fuel ctx forms m = .ok results m') :
    m'.store.Holds D.value ∧ ∀ result ∈ results, D.Allows D.value result := by
  induction forms generalizing m results with
  | nil => cases h; exact ⟨hm, nofun⟩
  | cons form rest ih =>
    obtain ⟨hform, hrest⟩ := List.forall_mem_cons.mp hforms
    have hends := (evaluateTop_agree fuel hc hform m hm).2
    -- An error leaves a machine for the other forms just as a value does.
    have onwards (first : Except EvalError Node) {next : Machine} (hnext : next.store.Holds D.value)
        (hfirst : D.Allows D.value first)
        (h : (evaluateEach fuel ctx rest next).map (first :: ·) = .ok results m') :
        m'.store.Holds D.value ∧ ∀ result ∈ results, D.Allows D.value result := by
      obtain ⟨later, hlater, rfl⟩ := Outcome.exists_of_map_eq_ok h
      obtain ⟨hm', hresults⟩ := ih hrest hnext hlater
      exact ⟨hm', List.forall_mem_cons.mpr ⟨hfirst, hresults⟩⟩
    rcases htop : evaluateTop fuel ctx form m with ⟨value, next⟩ | ⟨cause, next⟩ | _
    · rw [htop] at hends
      exact onwards (.ok value) hends.1 hends.2 (evaluateEach_cons_of_ok rest htop ▸ h)
    · rw [htop] at hends
      exact onwards (.error cause) hends.1 hends.2 (evaluateEach_cons_of_error rest htop ▸ h)
    · rw [evaluateEach_cons_of_outOfFuel rest htop] at h
      cases h

/-! ### Places of several texts -/

/-- The text can be read. -/
def IsReadable (text : String) : Prop := ∃ forms, read text = .ok forms

/-- The offset is that of a place in one of the texts that can be read, or that of their
beginning. -/
def IsCutOfAny (texts : List String) (offset : Nat) : Prop :=
  offset = 0 ∨ ∃ text ∈ texts, IsReadable text ∧ IsCut text.toList offset

namespace IsCutOfAny

variable {texts : List String} {offset : Nat}

theorem cons (h : IsCutOfAny texts offset) (text : String) : IsCutOfAny (text :: texts) offset :=
  h.imp id fun ⟨earlier, hmem, hcut⟩ ↦ ⟨earlier, List.mem_cons_of_mem _ hmem, hcut⟩

theorem head {text : String} (hread : IsReadable text) (h : IsCut text.toList offset) :
    IsCutOfAny (text :: texts) offset :=
  .inr ⟨text, List.mem_cons_self, hread, h⟩

/-- No place is behind the end of all texts. -/
theorem le (h : IsCutOfAny texts offset) {limit : Nat}
    (hlimit : ∀ text ∈ texts, IsReadable text → byteLength text.toList ≤ limit) :
    offset ≤ limit := by
  rcases h with rfl | ⟨text, hmem, hread, hcut⟩
  · exact Nat.zero_le _
  · exact Nat.le_trans hcut.le (hlimit text hmem hread)

end IsCutOfAny

/-- Everything that is bound has spans between places of texts. -/
def Store.IsFrom (texts : List String) (st : Store) : Prop :=
  st.Holds (Node.Spanned (Span.Between (IsCutOfAny texts)))

theorem Store.IsFrom.cons {texts : List String} {st : Store} (h : st.IsFrom texts) (text : String) :
    st.IsFrom (text :: texts) :=
  h.imp fun _ hn ↦ hn.mono fun _ hs ↦ ⟨hs.1.cons text, hs.2.cons text⟩

/-- In a fresh global scope nothing has been read. -/
theorem Store.isFrom_global : (Store.empty.add .global).IsFrom [] := by
  have hnowhere : Span.nowhere.Between (IsCutOfAny []) := ⟨.inl rfl, .inl rfl⟩
  exact (betweenDiscipline _).holds_global (.atom hnowhere) fun _ ↦ .atom hnowhere

/-- If everything that is bound is from texts, and another text is run, then it is from that text
besides, and so are the errors. -/
theorem isFrom_of_execEach {texts : List String} {text : String} {fuel : Nat} {ctx : Context}
    {m m' : Machine} {results : List (Except EvalError Node)} (hm : m.store.IsFrom texts)
    (h : execEach fuel ctx text m = .ok results m') :
    m'.store.IsFrom (text :: texts) ∧
      ∀ cause, .error cause ∈ results → cause.span.Between (IsCutOfAny (text :: texts)) := by
  unfold execEach at h
  rcases hread : read text with cause | forms
  · rw [hread] at h
    cases h
  · rw [hread] at h
    let D := betweenDiscipline (IsCutOfAny (text :: texts))
    have hcode : ∀ form ∈ forms, D.code form := fun form hform ↦
      (spanned_of_read hread form hform).mono fun s hs ↦
        ⟨.head ⟨forms, hread⟩ hs.start, .head ⟨forms, hread⟩ hs.stop⟩
    obtain ⟨hm', hresults⟩ := D.evaluateEach_allows fuel trivial hcode (hm.cons text) h
    exact ⟨hm', fun cause hcause ↦ hresults _ hcause⟩

namespace Prompt

/-! ### Texts in a row -/

section

variable {fuel : Nat} {ctx : Context} {text : String} {m m' : Machine}

/-- A text that can be read is run to its end, and all of its errors are reported. -/
theorem runText_of_ok {results : List (Except EvalError Node)}
    (h : execEach fuel ctx text m = .ok results m') (echo : Bool) :
    runText fuel ctx echo text m =
      .ok (results.filterMap (resultMessage? echo text), results.all Except.isOk) m' :=
  Action.bind_of_ok (Action.attempt_of_ok h) _

/-- Of a text that cannot be read only that is reported. -/
theorem runText_of_error {cause : ReadError} (h : execEach fuel ctx text m = .error cause m')
    (echo : Bool) :
    runText fuel ctx echo text m = .ok ([.report (cause.report text) text], false) m' :=
  Action.bind_of_ok (Action.attempt_of_error h) _

theorem runText_of_outOfFuel (h : execEach fuel ctx text m = .outOfFuel) (echo : Bool) :
    runText fuel ctx echo text m = .outOfFuel :=
  Action.bind_of_outOfFuel (Action.attempt_of_outOfFuel h) _

/-- A text that cannot be read leaves everything as it was. -/
theorem eq_of_execEach_error {cause : ReadError} (h : execEach fuel ctx text m = .error cause m') :
    m' = m := by
  unfold execEach at h
  rcases hread : read text with cause' | forms
  · rw [hread] at h
    cases h
    rfl
  · -- Running forms does not fail by itself.
    rw [hread] at h
    obtain ⟨results, after, hexec, -⟩ :=
      evaluateAll_of_evaluateEach fun hfuel ↦ nomatch h.symm.trans hfuel
    cases h.symm.trans hexec

/-- When a text was run, all of its forms were, or everything is as it was. -/
theorem execEach_of_runText {echo : Bool} (h : (runText fuel ctx echo text m).machine? = some m') :
    (∃ results, execEach fuel ctx text m = .ok results m') ∨ m' = m := by
  rcases hexec : execEach fuel ctx text m with ⟨results, after⟩ | ⟨cause, after⟩ | _
  · rw [runText_of_ok hexec] at h
    obtain rfl : after = m' := Option.some.inj h
    exact .inl ⟨results, rfl⟩
  · rw [runText_of_error hexec] at h
    obtain rfl : after = m' := Option.some.inj h
    exact .inr (eq_of_execEach_error hexec)
  · rw [runText_of_outOfFuel hexec] at h
    cases h

end

/-- Texts that were run one after the other from a fresh global scope on, the last one first, and
the machine that they have left behind. -/
inductive Ran : List String → Machine → Prop
  | start {m : Machine} (hm : m.store = Store.empty.add .global) : Ran [] m
  | text {texts : List String} {m m' : Machine} (h : Ran texts m) {fuel : Nat} {ctx : Context}
      {echo : Bool} {text : String} (hends : (runText fuel ctx echo text m).machine? = some m') :
      Ran (text :: texts) m'

/-- All that is bound is from the texts that were run. -/
theorem Ran.isFrom {texts : List String} {m : Machine} (h : Ran texts m) :
    m.store.IsFrom texts := by
  induction h with
  | start hm => exact hm ▸ Store.isFrom_global
  | @text texts m m' _ _ _ _ text hends ih =>
    rcases execEach_of_runText hends with ⟨results, hexec⟩ | rfl
    · exact (isFrom_of_execEach ih hexec).1
    · exact ih.cons text

end Prompt

open Prompt

/-! ### Reports -/

/-- **A reported error lies between two places of the texts that were run so far**, the one that it
is reported for among them. Neither is behind the end of that text if no text before it that can be
read is longer. -/
theorem reported_error_span {texts : List String} {m m' : Machine} (h : Ran texts m) {fuel : Nat}
    {ctx : Context} {text : String} {results : List (Except EvalError Node)}
    (hexec : execEach fuel ctx text m = .ok results m') {cause : EvalError}
    (hcause : .error cause ∈ results) :
    (∀ echo, ∃ shown ok, runText fuel ctx echo text m = .ok (shown, ok) m' ∧
        .report cause.report text ∈ shown) ∧
      cause.span.Between (IsCutOfAny (text :: texts)) ∧
      ((∀ earlier ∈ texts, IsReadable earlier →
          byteLength earlier.toList ≤ byteLength text.toList) →
        cause.span.start ≤ byteLength text.toList ∧ cause.span.stop ≤ byteLength text.toList) := by
  have hbetween := (isFrom_of_execEach h.isFrom hexec).2 cause hcause
  refine ⟨fun echo ↦ ⟨_, _, runText_of_ok hexec echo, ?_⟩, hbetween, fun hlength ↦ ?_⟩
  · exact List.mem_filterMap.mpr ⟨.error cause, hcause, rfl⟩
  · have hlimit : ∀ source ∈ text :: texts, IsReadable source →
        byteLength source.toList ≤ byteLength text.toList :=
      List.forall_mem_cons.mpr ⟨fun _ ↦ Nat.le_refl _, hlength⟩
    exact ⟨hbetween.1.le hlimit, hbetween.2.le hlimit⟩

/-- The spans of the errors among results. -/
def errorSpans (results : List (Except EvalError Node)) : List Span :=
  results.filterMap fun
    | .error cause => some cause.span
    | .ok _ => none

theorem mem_errorSpans {results : List (Except EvalError Node)} {span : Span} :
    span ∈ errorSpans results ↔ ∃ cause, .error cause ∈ results ∧ cause.span = span := by
  rw [errorSpans, List.mem_filterMap]
  constructor
  · rintro ⟨cause | value, hmem, hspan⟩
    · exact ⟨cause, hmem, Option.some.inj hspan⟩
    · cases hspan
  · rintro ⟨cause, hmem, hspan⟩
    exact ⟨.error cause, hmem, congrArg some hspan⟩

/-- The spans of the errors of a second text that is run after a first one. -/
def secondErrorSpans (first second : String) : Option (List Span) :=
  (runText 9 ⟨0, none⟩ false first ⟨Store.empty.add .global, 0, none⟩).machine?.bind fun m ↦
    (execEach 9 ⟨0, none⟩ second m).value?.map errorSpans

theorem exists_error_of_secondErrorSpans {first second : String} {span : Span}
    (h : secondErrorSpans first second = some [span]) :
    ∃ m results m' cause, Ran [first] m ∧ execEach 9 ⟨0, none⟩ second m = .ok results m' ∧
      .error cause ∈ results ∧ cause.span = span := by
  obtain ⟨m, hends, hspans⟩ := Option.bind_eq_some_iff.mp h
  obtain ⟨results, m', hexec, hspans⟩ := Outcome.exists_of_map_value? hspans
  have hmem : span ∈ errorSpans results := hspans ▸ List.mem_singleton_self span
  obtain ⟨cause, hcause, hspan⟩ := mem_errorSpans.mp hmem
  exact ⟨m, results, m', cause, (Ran.start rfl).text hends, hexec, hcause, hspan⟩

/-- The body of the procedure fails where it was read in the first text. The second text has room
for that span, thanks to a comment. -/
theorem reported_error_span_inside :
    let first := "(define (f) (car 1))"
    let second := "(f) ; fails in the body"
    ∃ m results m' cause, Ran [first] m ∧ execEach 9 ⟨0, none⟩ second m = .ok results m' ∧
      .error cause ∈ results ∧ cause.span = ⟨17, 18⟩ ∧
      byteLength first.toList ≤ byteLength second.toList ∧
      cause.span.stop ≤ byteLength second.toList := by
  intro first second
  have hspans : secondErrorSpans first second = some [⟨17, 18⟩] := by decide +kernel
  obtain ⟨m, results, m', cause, hran, hexec, hcause, hspan⟩ :=
    exists_error_of_secondErrorSpans hspans
  have hlength : ∀ earlier ∈ [first], byteLength earlier.toList ≤ byteLength second.toList := by
    decide
  obtain ⟨-, -, hinside⟩ := reported_error_span hran hexec hcause
  exact ⟨m, results, m', cause, hran, hexec, hcause, hspan, hlength first List.mem_cons_self,
    (hinside fun earlier hmem _ ↦ hlength earlier hmem).2⟩

/-- Without the comment it has not. -/
theorem reported_error_span_past :
    let first := "(define (f) (car 1))"
    let second := "(f)"
    ∃ m results m' cause, Ran [first] m ∧ execEach 9 ⟨0, none⟩ second m = .ok results m' ∧
      .error cause ∈ results ∧ ¬ cause.span.stop ≤ byteLength second.toList := by
  intro first second
  have hspans : secondErrorSpans first second = some [⟨17, 18⟩] := by decide +kernel
  obtain ⟨m, results, m', cause, hran, hexec, hcause, hspan⟩ :=
    exists_error_of_secondErrorSpans hspans
  refine ⟨m, results, m', cause, hran, hexec, hcause, ?_⟩
  rw [hspan]
  decide

end MiniLisp
