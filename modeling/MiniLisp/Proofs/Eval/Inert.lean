import MiniLisp.Proofs.Data.Copy
import MiniLisp.Proofs.Eval.Occurrence
import MiniLisp.Proofs.Eval.Template

/-!
# Inert templates

A node stands in a template under some forms of it, and among these are quasiquotations and
unquotations (`Node.Under`). An unquotation belongs to the outermost quasiquotation of all if as
many unquotations as quasiquotations stand around it in the template. A template in which no
unquotation has come that far is inert (`Node.Inert`), and its quasiquotation is its quotation: the
value is a copy of the template, and nothing at all is evaluated for it (`quasiquote_inert`).

The copy keeps count of a single depth. At each place that is one more than the quasiquotations less
the unquotations around the place, and in an inert template this is never one at an unquotation
(`copies_quasi`).
-/

namespace MiniLisp

namespace Node

/-! ### What stands around a node -/

/-- An unquotation, of either kind. -/
def IsUnquotation (n : Node) : Prop := n.IsTagged .unquote ∨ n.IsTagged .splice

instance (n : Node) : Decidable n.IsUnquotation :=
  inferInstanceAs (Decidable (n.IsTagged .unquote ∨ n.IsTagged .splice))

/-- One for a quasiquotation, and nothing for all else. -/
def raises (n : Node) : Nat := if n.IsTagged .quasiquote then 1 else 0

/-- One for an unquotation, and nothing for all else. -/
def lowers (n : Node) : Nat := if n.IsUnquotation then 1 else 0

/-- A node stands in a template as a part of pairs, of which as many are quasiquotations, and as
many are unquotations. -/
inductive Under (template : Node) : Nat → Nat → Node → Prop
  | self : Under template 0 0 template
  | car {q u : Nat} {n a : Node} (h : Under template q u n) (ha : n.car? = some a) :
      Under template (q + n.raises) (u + n.lowers) a
  | cdr {q u : Nat} {n d : Node} (h : Under template q u n) (hd : n.cdr? = some d) :
      Under template (q + n.raises) (u + n.lowers) d

/-- Every unquotation stands under more quasiquotations than unquotations. -/
def Inert (template : Node) : Prop :=
  ∀ q u n, template.Under q u n → n.IsUnquotation → u < q

variable {template n n' : Node} {q u q' u' : Nat}

theorem Under.trans (h : template.Under q u n) (h' : n.Under q' u' n') :
    template.Under (q + q') (u + u') n' := by
  induction h' with
  | self => exact h
  | car _ ha ih =>
    rw [← Nat.add_assoc, ← Nat.add_assoc]
    exact .car ih ha
  | cdr _ hd ih =>
    rw [← Nat.add_assoc, ← Nat.add_assoc]
    exact .cdr ih hd

/-- What stands in a template is the template, or stands in one of its two parts. -/
theorem Under.eq_or_of_part (h : template.Under q u n) :
    (q = 0 ∧ u = 0 ∧ n = template) ∨
      ∃ part q' u', (template.car? = some part ∨ template.cdr? = some part) ∧ part.Under q' u' n ∧
        q = template.raises + q' ∧ u = template.lowers + u' := by
  induction h with
  | self => exact .inl ⟨rfl, rfl, rfl⟩
  | car h ha ih =>
    rcases ih with ⟨rfl, rfl, rfl⟩ | ⟨part, q', u', hpart, hunder, rfl, rfl⟩
    · exact .inr ⟨_, 0, 0, .inl ha, .self, Nat.add_comm _ _, Nat.add_comm _ _⟩
    · exact .inr ⟨part, _, _, hpart, .car hunder ha, Nat.add_assoc _ _ _, Nat.add_assoc _ _ _⟩
  | cdr h hd ih =>
    rcases ih with ⟨rfl, rfl, rfl⟩ | ⟨part, q', u', hpart, hunder, rfl, rfl⟩
    · exact .inr ⟨_, 0, 0, .inr hd, .self, Nat.add_comm _ _, Nat.add_comm _ _⟩
    · exact .inr ⟨part, _, _, hpart, .cdr hunder hd, Nat.add_assoc _ _ _, Nat.add_assoc _ _ _⟩

/-- Looks for unquotations in a node that stands under so many quasiquotations and unquotations. -/
def inertUnder (q u : Nat) : Node → Bool
  | .pair l a d s =>
    let n : Node := .pair l a d s
    decide (n.IsUnquotation → u < q) &&
      inertUnder (q + n.raises) (u + n.lowers) a && inertUnder (q + n.raises) (u + n.lowers) d
  | _ => true

theorem inertUnder_iff :
    n.inertUnder q u = true ↔
      ∀ q' u' n', n.Under q' u' n' → n'.IsUnquotation → u + u' < q + q' := by
  have leaf {n : Node} (hcar : n.car? = none) (hcdr : n.cdr? = none) (hn : ¬ n.IsUnquotation)
      (q' u' : Nat) (n' : Node) (hunder : n.Under q' u' n') : ¬ n'.IsUnquotation := by
    rcases hunder.eq_or_of_part with ⟨-, -, rfl⟩ | ⟨part, _, _, hpart, -⟩
    · exact hn
    · rw [hcar, hcdr] at hpart
      rcases hpart with hpart | hpart <;> cases hpart
  induction n generalizing q u with
  | pair l a d s iha ihd =>
    simp only [inertUnder, Bool.and_eq_true, decide_eq_true_eq, iha, ihd]
    constructor
    · rintro ⟨⟨hself, ha⟩, hd⟩ q' u' n' hunder hun
      rcases hunder.eq_or_of_part with ⟨rfl, rfl, rfl⟩ | ⟨part, q₁, u₁, hpart, hin, rfl, rfl⟩
      · exact hself hun
      · rw [← Nat.add_assoc, ← Nat.add_assoc]
        rcases hpart with hcar | hcdr
        · cases hcar
          exact ha _ _ _ hin hun
        · cases hcdr
          exact hd _ _ _ hin hun
    · intro h
      have hpart {part : Node} (hunder : (Node.pair l a d s).Under
          (0 + (Node.pair l a d s).raises) (0 + (Node.pair l a d s).lowers) part)
          (q' u' : Nat) (n' : Node) (hn : part.Under q' u' n') (hun : n'.IsUnquotation) :
          u + (Node.pair l a d s).lowers + u' < q + (Node.pair l a d s).raises + q' := by
        have hlt := h _ _ n' (hunder.trans hn) hun
        omega
      exact ⟨⟨h 0 0 _ .self, hpart (.car .self rfl)⟩, hpart (.cdr .self rfl)⟩
  | _ =>
    refine ⟨fun _ q' u' n' hunder hun ↦ ?_, fun _ ↦ rfl⟩
    exact absurd hun (leaf rfl rfl (by rintro (h | h) <;> cases h) _ _ _ hunder)

instance (template : Node) : Decidable template.Inert :=
  decidable_of_iff (template.inertUnder 0 0 = true)
    (inertUnder_iff.trans (by simp only [Nat.zero_add, Inert]))

/-- A marked pair counts by its mark. -/
theorem raises_of_isMarked {l : Option Label} {car cdr operand : Node} {s : Span}
    {mark : QuoteMark} (h : IsMarked mark operand car cdr) :
    (Node.pair l car cdr s).raises = if mark = .quasiquote then 1 else 0 := by
  simp only [raises, isTagged_pair_iff h, eq_comm]

theorem lowers_of_isMarked {l : Option Label} {car cdr operand : Node} {s : Span}
    {mark : QuoteMark} (h : IsMarked mark operand car cdr) :
    (Node.pair l car cdr s).lowers = if mark = .unquote ∨ mark = .splice then 1 else 0 := by
  simp only [lowers, IsUnquotation, isTagged_pair_iff h, eq_comm]

/-- A pair that is no special one counts for nothing. -/
theorem counts_of_plain {l : Option Label} {car cdr : Node} {s : Span}
    (h : templateForm? car cdr = none) :
    (Node.pair l car cdr s).raises = 0 ∧ (Node.pair l car cdr s).lowers = 0 := by
  have hplain := (templateForm?_eq_none_iff (l := l) (s := s)).mp h
  refine ⟨if_neg (hplain .quasiquote nofun), if_neg ?_⟩
  rintro (hunquote | hsplice)
  · exact hplain .unquote nofun hunquote
  · exact hplain .splice nofun hsplice

/-- A list of one element is tagged with nothing. -/
theorem not_isTagged_of_cdr {l : Option Label} {car cdr : Node} {s : Span} (h : cdr.car? = none)
    (mark : QuoteMark) : ¬ (Node.pair l car cdr s).IsTagged mark := by
  intro htagged
  obtain ⟨_, _, _, _, _, hn, hmarked⟩ := isTagged_iff.mp htagged
  cases hn
  cases hmarked
  cases h

/-- Only the form itself stands around its operand. -/
theorem under_operand {l : Option Label} {car cdr operand : Node} {s : Span} {mark : QuoteMark}
    (h : IsMarked mark operand car cdr) :
    (Node.pair l car cdr s).Under (Node.pair l car cdr s).raises (Node.pair l car cdr s).lowers
      operand := by
  have hcdr : (Node.pair l car cdr s).Under (0 + (Node.pair l car cdr s).raises)
      (0 + (Node.pair l car cdr s).lowers) cdr := .cdr .self rfl
  have hnone (mark : QuoteMark) : ¬ cdr.IsTagged mark := by
    cases h
    exact not_isTagged_of_cdr rfl mark
  have hraises : cdr.raises = 0 := if_neg (hnone _)
  have hlowers : cdr.lowers = 0 := if_neg fun h ↦ h.elim (hnone _) (hnone _)
  have hoperand : cdr.car? = some operand := by
    cases h
    rfl
  have hunder := Under.car hcdr hoperand
  rwa [hraises, hlowers, Nat.zero_add, Nat.zero_add] at hunder

/-! ### Copies of inert templates -/

/-- Copies are tagged alike, with copies of the operand. -/
theorem Copy.operandOf? (h : n.Copy n') {mark : QuoteMark} {operand : Node}
    (hoperand : n.operandOf? mark.name = some operand) :
    ∃ operand', n'.operandOf? mark.name = some operand' ∧ operand.Copy operand' := by
  obtain ⟨l, car, cdr, s, rfl, hmarked⟩ := operandOf?_eq_some_iff.mp hoperand
  cases hmarked
  cases h with
  | pair hcar hcdr =>
    cases hcar
    cases hcdr with
    | @pair _ _ _ operand' _ _ _ _ ha hnil =>
      cases hnil
      exact ⟨operand', if_pos rfl, ha⟩

theorem Copy.isTagged_iff (h : n.Copy n') (mark : QuoteMark) :
    n.IsTagged mark ↔ n'.IsTagged mark := by
  have half {n n' : Node} (h : n.Copy n') (htagged : n.IsTagged mark) : n'.IsTagged mark := by
    obtain ⟨operand, hoperand⟩ := Option.isSome_iff_exists.mp htagged
    obtain ⟨operand', hoperand', -⟩ := h.operandOf? hoperand
    exact Option.isSome_iff_exists.mpr ⟨operand', hoperand'⟩
  exact ⟨half h, half h.symm⟩

theorem Copy.isUnquotation_iff (h : n.Copy n') : n.IsUnquotation ↔ n'.IsUnquotation :=
  or_congr (h.isTagged_iff _) (h.isTagged_iff _)

theorem Copy.raises (h : n.Copy n') : n.raises = n'.raises := by
  unfold Node.raises
  simp only [h.isTagged_iff]

theorem Copy.lowers (h : n.Copy n') : n.lowers = n'.lowers := by
  unfold Node.lowers
  simp only [h.isUnquotation_iff]

/-- What stands in a copy is a copy of what stands in the same place of the template. -/
theorem Under.copy {copy : Node} (h : copy.Under q u n) (hcopy : copy.Copy template) :
    ∃ n', template.Under q u n' ∧ n.Copy n' := by
  induction h with
  | self => exact ⟨template, .self, hcopy⟩
  | car _ ha ih =>
    obtain ⟨n', hunder, hn⟩ := ih
    obtain ⟨a', ha', hcopy⟩ := hn.car? ha
    exact ⟨a', by rw [hn.raises, hn.lowers]; exact .car hunder ha', hcopy⟩
  | cdr _ hd ih =>
    obtain ⟨n', hunder, hn⟩ := ih
    obtain ⟨d', hd', hcopy⟩ := hn.cdr? hd
    exact ⟨d', by rw [hn.raises, hn.lowers]; exact .cdr hunder hd', hcopy⟩

theorem Inert.copy {copy : Node} (h : template.Inert) (hcopy : copy.Copy template) :
    copy.Inert := by
  intro q u n hunder hn
  obtain ⟨n', hunder', hn'⟩ := hunder.copy hcopy
  exact h q u n' hunder' (hn'.isUnquotation_iff.mp hn)

end Node

/-! ### Copying without running anything -/

/-- Whatever way there is to run steps, an action makes the same copy of a node, and only uses up
labels. -/
def Copies (x : Runner → Action EvalError Node) (n : Node) : Prop :=
  ∀ m, ∃ value label, (∀ run, x run m = .ok value { m with label := label }) ∧ value.Copy n

namespace Copies

variable {x : Runner → Action EvalError Node} {f : Runner → Node → Action EvalError Node}
  {n n' : Node}

theorem pure (n : Node) : Copies (fun _ ↦ Pure.pure n) n :=
  fun m ↦ ⟨n, m.label, fun _ ↦ rfl, .refl n⟩

theorem adopt (h : n.Copy n') : Copies (fun _ ↦ Action.adopt n) n' :=
  fun m ↦ ⟨(n.adopt m.label).1, (n.adopt m.label).2, fun _ ↦ rfl, (Node.Copy.adopt n _).trans h⟩

theorem bind (h : Copies x n) (hf : ∀ value, value.Copy n → Copies (fun run ↦ f run value) n') :
    Copies (fun run ↦ x run >>= f run) n' := by
  intro m
  obtain ⟨value, label, hvalue, hcopy⟩ := h m
  obtain ⟨value', label', hvalue', hcopy'⟩ := hf value hcopy { m with label := label }
  exact ⟨value', label', fun run ↦ (Action.bind_of_ok (hvalue run) _).trans (hvalue' run), hcopy'⟩

/-- The list of a mark and a copy of its operand is a copy of the form. -/
theorem rewrap {l : Option Label} {car cdr operand : Node} {s : Span} {mark : QuoteMark}
    (hmarked : IsMarked mark operand car cdr) (h : Copies x operand) :
    Copies (fun run ↦ x run >>= rewrap mark s) (.pair l car cdr s) := by
  refine h.bind fun inner hinner ↦ adopt ?_
  cases hmarked
  exact .pair .atom (.pair hinner .atom)

end Copies

open Node in
/-- **A template is copied without running anything**, if no unquotation in it comes down to depth
one. -/
theorem copies_quasi (ctx : Context) {template : Node} {depth : Nat}
    (h : ∀ q u n, template.Under q u n → n.IsUnquotation → u + 1 < q + depth) :
    Copies (fun run ↦ quasi run ctx template depth) template := by
  induction template using template_induct generalizing depth with
  | leaf n hn =>
    simp only [quasi_leaf _ ctx hn]
    exact .pure n
  | marked l car cdr s mark operand hform ih =>
    obtain ⟨hmarked, hquote⟩ := templateForm?_eq_some_iff.mp hform
    have hself := h 0 0 _ .self
    have hinner (q u : Nat) (n : Node) (hn : operand.Under q u n) (hun : n.IsUnquotation) :=
      h _ _ n ((under_operand (l := l) (s := s) hmarked).trans hn) hun
    simp only [raises_of_isMarked hmarked, lowers_of_isMarked hmarked] at hinner
    simp only [IsUnquotation, isTagged_pair_iff hmarked] at hself
    simp only [quasi_pair, hform]
    -- The depth at the operand is that of the form, one up or one down.
    have hlower (hmark : mark = .unquote ∨ mark = .splice) :
        1 < depth ∧ Copies (fun run ↦ quasi run ctx operand (depth - 1)) operand := by
      have hquasiquote : mark ≠ .quasiquote := by rintro rfl; exact hmark.elim nofun nofun
      have hdepth : 0 + 1 < 0 + depth := hself (hmark.imp Eq.symm Eq.symm)
      simp only [if_pos hmark, if_neg hquasiquote] at hinner
      refine ⟨by omega, ih fun q u n hn hun ↦ ?_⟩
      have hlt := hinner q u n hn hun
      omega
    cases mark with
    | quote => exact absurd rfl hquote
    | unquote =>
      obtain ⟨hdepth, hoperand⟩ := hlower (.inl rfl)
      simp only [if_neg (Nat.ne_of_gt hdepth)]
      exact .rewrap hmarked hoperand
    | splice =>
      obtain ⟨hdepth, hoperand⟩ := hlower (.inr rfl)
      simp only [if_neg (Nat.ne_of_gt hdepth)]
      exact .rewrap hmarked hoperand
    | quasiquote =>
      refine .rewrap hmarked (ih fun q u n hn hun ↦ ?_)
      have hlt : 0 + u + 1 < 1 + q + depth := hinner q u n hn hun
      omega
  | plain l car cdr s hform ihcar ihcdr =>
    let whole : Node := .pair l car cdr s
    have hraises : whole.raises = 0 := (counts_of_plain hform).1
    have hlowers : whole.lowers = 0 := (counts_of_plain hform).2
    have hpart {part : Node} (hunder : whole.Under (0 + whole.raises) (0 + whole.lowers) part)
        (q u : Nat) (n : Node) (hn : part.Under q u n) (hun : n.IsUnquotation) :
        u + 1 < q + depth := by
      have hlt := h _ _ n (hunder.trans hn) hun
      omega
    have hsplice : (if depth = 1 then car.operandOf? QuoteMark.splice.name else none) = none := by
      split
      · cases hoperand : car.operandOf? QuoteMark.splice.name with
        | none => rfl
        | some operand =>
          have hun : car.IsUnquotation := .inr (Option.isSome_iff_exists.mpr ⟨operand, hoperand⟩)
          have hlt := hpart (.car .self rfl) 0 0 car .self hun
          omega
      · rfl
    simp only [quasi_pair, hform, quasiElements, hsplice]
    refine (ihcar (hpart (.car .self rfl))).bind fun first hfirst ↦ ?_
    exact (ihcdr (hpart (.cdr .self rfl))).bind fun rest hrest ↦ .adopt (.pair hfirst hrest)

/-! ### Nothing occurs -/

/-- A step that is no use of a macro, and does the same with all ways to run steps, sets off the
step that it hands back and nothing else. -/
theorem Starts.eq_of_next {step next : Step} {m m' : Machine} {q : Moment}
    (h : Starts ⟨.step step, m⟩ q) (hnext : ∀ run, step.next run m = .ok next m')
    (hcall : ∀ l head operands s ctx, step = .eval (.pair l head operands s) ctx →
      head.symbol?.bind SpecialForm.ofName? ≠ none) : q = ⟨.step next, m'⟩ := by
  cases h with
  | nested fuel asks => exact absurd asks (not_asks hnext _ _ _)
  | next fuel hands =>
    cases (hnext (runStep fuel)).symm.trans hands
    rfl
  | expand fuel call => exact absurd call (hcall _ _ _ _ _ rfl)

/-- **The quasiquotation of an inert template is its quotation.** Its value is a copy of the
template, and the same data if all numbers in the template are equal to themselves. No scope
changes, no event is kept, and nothing else occurs in the evaluation: there is the form, and then
its value. -/
theorem quasiquote_inert {form template : Node}
    (hform : form.operandOf? QuoteMark.quasiquote.name = some template) (hinert : template.Inert)
    (ctx : Context) (m : Machine) :
    ∃ value label,
      (∀ fuel, evaluate (fuel + 2) form ctx m = .ok value { m with label := label }) ∧
      value.Copy template ∧
      ((∀ part ∈ template.parts, ∀ x, part.number? = some x → x.same x = true) →
        template.same value = true) ∧
      ∀ p, Occurs (.start form ctx m) p →
        p = .start form ctx m ∨ p = ⟨.step (.done value), { m with label := label }⟩ := by
  -- The form is labelled first, which leaves the template inert.
  let form' := (form.adopt m.label).1
  let next := (form.adopt m.label).2
  obtain ⟨template', hform', hcopy'⟩ :=
    (Node.Copy.adopt form m.label).symm.operandOf? hform
  have hinert' : template'.Inert := hinert.copy hcopy'.symm
  have hcopies' : Copies (fun run ↦ quasi run ctx template' 1) template' :=
    copies_quasi ctx fun q u n hn hun ↦ Nat.succ_lt_succ (hinert' q u n hn hun)
  obtain ⟨value, label, hvalue, hcopy⟩ := hcopies' { m with label := next }
  have hcopies := hcopy.trans hcopy'.symm
  have hnext (run : Runner) : (Step.eval form' ctx).next run { m with label := next } =
      .ok (.done value) { m with label := label } := by
    rw [next_quasiquote run hform', ← bind_pure_comp]
    exact Action.bind_of_ok (hvalue run) _
  have hspecial (l : Option Label) (head operands : Node) (s : Span) (ctx' : Context)
      (e : Step.eval form' ctx = .eval (.pair l head operands s) ctx') :
      head.symbol?.bind SpecialForm.ofName? ≠ none := by
    obtain ⟨_, _, _, _, hpair, hmarked⟩ := operandOf?_eq_some_iff.mp hform'
    cases (Step.eval.inj e).1.symm.trans hpair
    cases hmarked
    exact nofun
  refine ⟨value, label, fun fuel ↦ ?_, hcopies, fun hnumbers ↦ hcopies.symm.same hnumbers, ?_⟩
  · have hrun := congrFun (runStep_quasiquote fuel hform' ctx) { m with label := next }
    exact hrun.trans (hvalue (runStep (fuel + 1)))
  · intro p hoccurs
    induction hoccurs with
    | refl => exact .inl rfl
    | tail _ hstarts ih =>
      rcases ih with rfl | rfl
      · exact .inr (hstarts.eq_of_next hnext hspecial)
      · exact .inr (hstarts.eq_of_next (fun _ ↦ rfl) nofun)

/-- In `(quasiquote (a (quasiquote (b (unquote (c . d)))) (unquote x y)))` the one unquotation
belongs to the inner quasiquotation, and `(unquote x y)` is none. -/
theorem quasiquote_inert_nested :
    let symbol (name : String) : Node := .symbol name .nowhere
    let list (items : List Node) : Node := .ofList items .nowhere
    let pair : Node := .pair none (symbol "c") (symbol "d") .nowhere
    let inner := list [symbol "quasiquote", list [symbol "b", list [symbol "unquote", pair]]]
    let template := list [symbol "a", inner, list [symbol "unquote", symbol "x", symbol "y"]]
    let form := list [symbol "quasiquote", template]
    form.operandOf? QuoteMark.quasiquote.name = some template ∧ template.Inert ∧
      ∃ value label, evaluate 2 form ⟨0, none⟩ .initial =
          .ok value { Machine.initial with label := label } ∧
        value.Copy template ∧ template.same value = true := by
  intro symbol list pair inner template form
  have hform : form.operandOf? QuoteMark.quasiquote.name = some template := rfl
  have hinert : template.Inert := by decide
  obtain ⟨value, label, hvalue, hcopy, hsame, -⟩ :=
    quasiquote_inert hform hinert ⟨0, none⟩ .initial
  have hnumbers : ∀ part ∈ template.parts, part.number? = none := by decide
  refine ⟨hform, hinert, value, label, hvalue 0, hcopy, hsame fun part hpart x hx ↦ ?_⟩
  cases (hnumbers part hpart).symm.trans hx

end MiniLisp
