import MiniLisp.Program.Exec
import MiniLisp.Proofs.Eval.Agreement
import MiniLisp.Proofs.Reading.Spans

/-!
# Where errors of a program are

An error of a program that runs in a fresh global scope is found between two places of its text. If
the program defines no macro and does not splice, the first of them is not behind the second
(`exec_error_span`).

Without that condition it may be. The inner pairs of a list that is made from values run from their
element to the end of the list, and the element may have been read further on in the text
(`exec_error_span_backwards`). Nothing complains about a proper list as such, so the span of an
inner pair is only shown where the list is evaluated, as the expansion of a macro, or where it was
given another tail, by a splice.

There are thus two disciplines. In the first one all spans anywhere are between places in the text.
The second one is about programs without macros and splices, where code stays as it was read, and it
says nothing about the spans of proper lists.
-/

namespace MiniLisp

/-! ### Forms of a program -/

namespace Discipline

variable {D : Discipline}

/-- One form of a program stays within a discipline. -/
theorem evaluateTop_agree (fuel : Nat) {ctx : Context} (hc : D.place ctx) {form : Node}
    (hform : D.code form) :
    D.Agree D.value (evaluateTop fuel ctx form) (evaluateTop fuel ctx form) :=
  .bind .store fun _ _ ↦ .bind (.note _) fun _ _ ↦ evaluate_agree fuel hform hc

/-- Programs of allowed forms stay within a discipline. -/
theorem evaluateAll_agree (fuel : Nat) {ctx : Context} (hc : D.place ctx) {forms : List Node}
    (hforms : ∀ form ∈ forms, D.code form) :
    D.Agree (fun _ ↦ True) (evaluateAll fuel ctx forms) (evaluateAll fuel ctx forms) := by
  induction forms with
  | nil => exact .pure trivial
  | cons form rest ih =>
    obtain ⟨hform, hrest⟩ := List.forall_mem_cons.mp hforms
    have htop := evaluateTop_agree fuel hc hform
    exact .bind htop fun _ _ ↦ .bind (ih hrest) fun _ _ ↦ .pure trivial

/-- A fresh global scope only binds values, given that what was read from no text is one. -/
theorem holds_global (hnil : D.value (.nil .nowhere))
    (hbuiltin : ∀ b : Builtin, D.value (.atom (.native b.native) .nowhere)) :
    (Store.empty.add .global).Holds D.value := by
  refine Store.holds_empty.add (List.forall_mem_cons.mpr ⟨hnil, fun p hp ↦ ?_⟩)
  obtain ⟨b, -, rfl⟩ := List.mem_map.mp hp
  exact hbuiltin b

end Discipline

/-- An error of a program is one in evaluating its forms. -/
theorem evaluateAll_of_exec {fuel : Nat} {ctx : Context} {source : String} {m m' : Machine}
    {cause : EvalError} (h : exec fuel ctx source m = .error (.eval cause) m') :
    ∃ forms, read source = .ok forms ∧ evaluateAll fuel ctx forms m = .error cause m' := by
  unfold exec at h
  cases hread : read source with
  | error cause => rw [hread] at h; cases h
  | ok forms =>
    rw [hread] at h
    refine ⟨forms, rfl, ?_⟩
    have h : (evaluateAll fuel ctx forms).mapError ProgramError.eval m =
        .error (.eval cause) m' := h
    unfold Action.mapError at h
    cases hall : evaluateAll fuel ctx forms m with
    | ok value after => rw [hall] at h; cases h
    | error cause after => rw [hall] at h; cases h; rfl
    | outOfFuel => rw [hall] at h; cases h

/-- An error of a program has a span that any discipline allows under which the program is read and
started. -/
theorem span_of_exec (D : Discipline) {fuel : Nat} {ctx : Context} {source : String}
    {m m' : Machine} {cause : EvalError} (hc : D.place ctx) (hm : m.store.Holds D.value)
    (hread : ∀ forms, read source = .ok forms → ∀ form ∈ forms, D.code form)
    (h : exec fuel ctx source m = .error (.eval cause) m') : D.span cause.span := by
  obtain ⟨forms, hforms, hall⟩ := evaluateAll_of_exec h
  have hends := (D.evaluateAll_agree fuel hc (hread forms hforms) m hm).2
  rw [hall] at hends
  exact hends.2

/-! ### Between places of the text -/

/-- Both ends of a span are offsets of a kind. -/
def Span.Between (C : Nat → Prop) (s : Span) : Prop := C s.start ∧ C s.stop

/-- All spans are between offsets of a kind. -/
def betweenDiscipline (C : Nat → Prop) : Discipline where
  place _ := True
  span := Span.Between C
  code := Node.Spanned (Span.Between C)
  value := Node.Spanned (Span.Between C)
  reflection := True
  splices := True
  place_inside _ _ := trivial
  code_span h := h.span
  code_parts h := h.parts
  code_adopt h := h.adopt
  code_macro _ _ := trivial
  code_splice _ _ := trivial
  value_of_code h := h
  code_of_value _ _ h := h
  value_parts h := h.parts
  value_adopt h := h.adopt
  leaf_span h _ := h.span
  improper_span h _ := h.span
  native_host _ _ := trivial
  value_atom _ hs := .atom hs
  value_pair ha hd hs := .pair ha hd hs
  value_list hitems hs := .ofList hitems hs ⟨hs.2, hs.2⟩
    fun item hitem _ ht ↦ ⟨(hitems item hitem).span.1, max_rec' C hs.2 ht.2⟩
  value_splice _ _ _ _ hitems htail hs := .listWithTail hitems htail hs
    fun item hitem _ ht ↦ ⟨(hitems item hitem).span.1, max_rec' C hs.2 ht.2⟩
  closure_forms h := by
    cases h with
    | closure hbody _ => exact hbody
  value_closure hbody hs := .closure hbody hs
  transformer_forms h := by
    cases h with
    | transformer hbody _ => exact ⟨trivial, hbody⟩
  value_transformer _ _ _ _ _ _ _ hbody hs := .transformer hbody hs

/-! ### Forwards, without macros and splices -/

/-- What complaints can show of a value: the spans of all that is no proper list. The forms of
procedures are code, and there are neither macros nor hosts that evaluate. -/
inductive Node.Shown (P : Span → Prop) (code : Node → Prop) : Node → Prop
  | atom {a : Atom} {s : Span} (hhost : ∀ p, a = .native p → p.operation ≠ .host .eval) (hs : P s) :
      Shown P code (.atom a s)
  | pair {l : Option Label} {a d : Node} {s : Span} (ha : Shown P code a) (hd : Shown P code d)
      (hs : d.toList? = none → P s) : Shown P code (.pair l a d s)
  | closure {l : Label} {name : Option String} {params : Params} {body : List Node}
      {scope : ScopeId} {s : Span} (hbody : ∀ form ∈ body, code form) (hs : P s) :
      Shown P code (.closure l name params body scope s)

namespace Node.Shown

variable {P : Span → Prop} {code : Node → Prop} {n : Node}

theorem parts {l : Option Label} {a d : Node} {s : Span} (h : (Node.pair l a d s).Shown P code) :
    a.Shown P code ∧ d.Shown P code := by
  cases h with
  | pair ha hd _ => exact ⟨ha, hd⟩

/-- What was read is shown in full. -/
theorem of_spanned {N : String → Prop} (hspans : n.Spanned P) (hwritten : n.Written N) :
    n.Shown P code := by
  induction n with
  | atom a s =>
    cases hwritten with
    | atom hnative _ => exact .atom (fun p hp ↦ absurd hp (hnative p)) hspans.span
  | pair l a d s iha ihd =>
    exact .pair (iha hspans.parts.1 hwritten.parts.1) (ihd hspans.parts.2 hwritten.parts.2)
      fun _ ↦ hspans.span
  | closure => cases hwritten
  | transformer => cases hwritten

/-- Being labelled makes no list proper or improper. -/
theorem adopt (h : n.Shown P code) (next : Label) : (n.adopt next).1.Shown P code := by
  refine adopt_induct parts (fun {a d s} l next next' h ha hd ↦ .pair ha hd fun hnone ↦ ?_) h next
  have hlength := length_toList?_adopt d next'
  rw [hnone] at hlength
  cases h with
  | pair _ _ hs => exact hs (Option.map_eq_none_iff.mp hlength.symm)

theorem ofList {items : List Node} {s : Span} (hitems : ∀ item ∈ items, item.Shown P code) (hs : P s)
    (hstop : P (.at_ s.stop)) : (ofList items s).Shown P code := by
  have hnil (t : Span) (ht : P t) : (nil t).Shown P code := .atom nofun ht
  -- The pairs are those of a proper list, so nothing is asked of their spans.
  have hchain : (chain s.stop items (nil (.at_ s.stop))).Shown P code ∧
      (chain s.stop items (nil (.at_ s.stop))).toList? ≠ none := by
    refine chain_induct (Q := fun n ↦ n.Shown P code ∧ n.toList? ≠ none) ⟨hnil _ hstop, nofun⟩
      fun item hitem d hd ↦ ⟨?_, ?_⟩
    · exact .pair (hitems item hitem) hd.1 fun hnone ↦ absurd hnone hd.2
    · rw [toList?_pair]
      exact fun hnone ↦ hd.2 (Option.map_eq_none_iff.mp hnone)
  cases items with
  | nil => exact hnil _ hs
  | cons item items =>
    cases hchain.1 with
    | pair ha hd _ => exact .pair ha hd fun _ ↦ hs

end Node.Shown

/-- A symbol of this name neither defines a macro nor splices. -/
def IsPlainName (name : String) : Prop :=
  name ≠ SpecialForm.macroForm.name ∧ name ≠ QuoteMark.splice.name

instance (name : String) : Decidable (IsPlainName name) := inferInstanceAs (Decidable (_ ∧ _))

/-- The token neither defines a macro nor splices. -/
def Token.IsPlain (t : Token) : Prop := t.kind ≠ .splice ∧ (t.kind = .symbol → IsPlainName t.text)

instance (t : Token) : Decidable t.IsPlain := inferInstanceAs (Decidable (_ ∧ (_ → _)))

theorem Token.IsPlain.namesOf {t : Token} (h : t.IsPlain) : Derivation.NamesOf IsPlainName t := by
  refine ⟨h.2, fun mark hmark ↦ ?_⟩
  cases mark with
  | splice => exact absurd hmark h.1
  | quote | quasiquote | unquote => exact ⟨by decide, by decide⟩

/-- Macros are defined by forms of one name only. -/
theorem SpecialForm.eq_name_of_ofName? {name : String} (h : ofName? name = some macroForm) :
    name = macroForm.name := by
  have htable : ∀ p ∈ table, p.2 = macroForm → p.1 = macroForm.name := by decide
  obtain ⟨front, back, hmem, -⟩ := List.lookup_eq_some_iff.mp h
  exact htable (name, macroForm) (hmem ▸ List.mem_append_right _ List.mem_cons_self) rfl

/-- Where something is spliced, there is the symbol for it. -/
theorem Node.Written.operandOf? {N : String → Prop} {n operand : Node} {name : String}
    (h : n.Written N) (hoperand : n.operandOf? name = some operand) : N name := by
  unfold Node.operandOf? at hoperand
  split at hoperand
  · split at hoperand
    · next hname => exact hname ▸ h.parts.1.symbol? rfl
    · cases hoperand
  · cases hoperand

/-- Code stays as it was read, with spans that have a property, and so do the spans of all values
but proper lists. -/
def plainDiscipline (P : Span → Prop) (hstop : ∀ s, P s → P (.at_ s.stop)) : Discipline where
  place _ := True
  span := P
  code n := n.Spanned P ∧ n.Written IsPlainName
  value := Node.Shown P fun n ↦ n.Spanned P ∧ n.Written IsPlainName
  reflection := False
  splices := False
  place_inside _ _ := trivial
  code_span h := h.1.span
  code_parts h := ⟨⟨h.1.parts.1, h.2.parts.1⟩, h.1.parts.2, h.2.parts.2⟩
  code_adopt h label := ⟨h.1.adopt label, h.2.adopt label⟩
  code_macro h hform := by
    obtain ⟨name, hname, hspecial⟩ := Option.bind_eq_some_iff.mp hform
    exact (h.2.parts.1.symbol? hname).1 (SpecialForm.eq_name_of_ofName? hspecial)
  code_splice h hoperand := (h.2.operandOf? hoperand).2 rfl
  value_of_code h := .of_spanned h.1 h.2
  code_of_value h := h.elim
  value_parts h := h.parts
  value_adopt h := h.adopt
  leaf_span h hleaf := by
    cases h with
    | atom _ hs => exact hs
    | pair => cases hleaf
    | closure _ hs => exact hs
  improper_span h himproper := by
    cases h with
    | atom _ hs => exact hs
    | pair _ _ hs =>
      rw [Node.toList?_pair] at himproper
      exact hs (Option.map_eq_none_iff.mp himproper)
    | closure _ hs => exact hs
  native_host h hhost := by
    cases h with
    | atom hnot _ => exact hnot _ rfl hhost
  value_atom hnative hs := .atom (fun p hp ↦ absurd hp (hnative p)) hs
  value_pair ha hd hs := .pair ha hd fun _ ↦ hs
  value_list hitems hs := .ofList hitems hs (hstop _ hs)
  value_splice h := h.elim
  closure_forms h := by
    cases h with
    | closure hbody _ => exact hbody
  value_closure hbody hs := .closure hbody hs
  transformer_forms h := nomatch h
  value_transformer h := h.elim

/-! ### Errors -/

/-- The span of the error in evaluating a form that a program ends with. -/
def Outcome.errorSpan? {α : Type} : Outcome ProgramError α → Option Span
  | .error (.eval cause) _ => some cause.span
  | _ => none

theorem Outcome.exists_of_errorSpan? {α : Type} {outcome : Outcome ProgramError α} {span : Span}
    (h : outcome.errorSpan? = some span) :
    ∃ cause m, outcome = .error (.eval cause) m ∧ cause.span = span := by
  unfold errorSpan? at h
  split at h
  · next cause m => exact ⟨cause, m, rfl, Option.some.inj h⟩
  · cases h

/-- **The error of a program lies between two places of its text**, whatever scope and dynamic scope
the program runs in. The places are in order if no macro is defined in the program and nothing is
spliced. -/
theorem exec_error_span {fuel : Nat} {ctx : Context} {source : String} {m m' : Machine}
    {cause : EvalError} (hm : m.store = Store.empty.add .global)
    (h : exec fuel ctx source m = .error (.eval cause) m') :
    cause.span.Between (IsCut source.toList) ∧
      cause.span.start ≤ byteLength source.toList ∧ cause.span.stop ≤ byteLength source.toList ∧
      ((∀ t ∈ tokenize source, t.IsPlain) → cause.span.start ≤ cause.span.stop) := by
  have hbetween : cause.span.Between (IsCut source.toList) := by
    let D := betweenDiscipline (IsCut source.toList)
    have hnowhere : Span.nowhere.Between (IsCut source.toList) := ⟨isCut_zero _, isCut_zero _⟩
    refine span_of_exec D trivial ?_ (fun forms hread form hform ↦ ?_) h
    · rw [hm]
      exact D.holds_global (.atom hnowhere) fun _ ↦ .atom hnowhere
    · exact (spanned_of_read hread form hform).mono fun s hs ↦ ⟨hs.start, hs.stop⟩
  refine ⟨hbetween, hbetween.1.le, hbetween.2.le, fun hplain ↦ ?_⟩
  let D := plainDiscipline (fun s ↦ s.start ≤ s.stop) fun s _ ↦ Nat.le_refl s.stop
  have hnowhere : Span.nowhere.start ≤ Span.nowhere.stop := Nat.le_refl 0
  refine span_of_exec D trivial ?_ (fun forms hread form hform ↦ ⟨?_, ?_⟩) h
  · rw [hm]
    exact D.holds_global (.atom nofun hnowhere) fun b ↦ .atom (by rintro p ⟨⟩ ⟨⟩) hnowhere
  · exact (spanned_of_read hread form hform).mono fun s hs ↦ hs.start_le_stop
  · exact written_of_read hread (fun t ht ↦ (hplain t ht).namesOf) form hform

/-- The error of a call is found where the argument was read. -/
theorem exec_error_span_argument :
    let source := "(define (f x) (car x))\n(f 1)"
    let m : Machine := ⟨Store.empty.add .global, 0, none⟩
    ∃ cause m', exec 9 ⟨0, none⟩ source m = .error (.eval cause) m' ∧ cause.span = ⟨26, 27⟩ ∧
      (∀ t ∈ tokenize source, t.IsPlain) ∧ cause.span.Within (byteLength source.toList) := by
  intro source m
  have hspan : (exec 9 ⟨0, none⟩ source m).errorSpan? = some ⟨26, 27⟩ := by decide +kernel
  have hplain : ∀ t ∈ tokenize source, t.IsPlain := by decide +kernel
  obtain ⟨cause, m', h, hcause⟩ := Outcome.exists_of_errorSpan? hspan
  obtain ⟨-, -, hstop, hforward⟩ := exec_error_span rfl h
  exact ⟨cause, m', h, hcause, hplain, hforward hplain, hstop⟩

/-- The macro makes a list and expands to its rest, the call `(car)`. That pair begins with the
symbol `car`, which was read in the second line, and ends with the call of `list` in the first. -/
theorem exec_error_span_backwards :
    let source := "(defmacro (m a) (cdr (list a (car a))))\n(m car)"
    let m : Machine := ⟨Store.empty.add .global, 0, none⟩
    ∃ cause m', exec 30 ⟨0, none⟩ source m = .error (.eval cause) m' ∧ cause.span = ⟨43, 37⟩ ∧
      ¬ cause.span.Within (byteLength source.toList) := by
  intro source m
  have hspan : (exec 30 ⟨0, none⟩ source m).errorSpan? = some ⟨43, 37⟩ := by decide +kernel
  obtain ⟨cause, m', h, hcause⟩ := Outcome.exists_of_errorSpan? hspan
  refine ⟨cause, m', h, hcause, fun hwithin ↦ ?_⟩
  rw [hcause] at hwithin
  exact absurd hwithin.1 (by decide)

end MiniLisp
