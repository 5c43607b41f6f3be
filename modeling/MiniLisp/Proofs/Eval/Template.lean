import MiniLisp.Eval.Fuel

/-!
# Templates

How a copy goes through a template. Everything about a pair is decided by the form that it is, if it
is one that a template treats specially (`templateForm?`): the list of the symbol of a mark and one
operand. Then the operand is all that is looked at. Any other pair is copied by its two parts
(`quasiElements`).

An induction over templates follows the copy (`Node.template_induct`).
-/

namespace MiniLisp

/-- The mark and the operand of a pair that a template treats specially. -/
def templateForm? (car cdr : Node) : Option (QuoteMark × Node) :=
  match car, cdr with
  | .atom (.symbol name) _, .pair _ operand (.atom .nil _) _ =>
    (templateMark? name).map fun mark ↦ (mark, operand)
  | _, _ => none

/-- The copy of a pair in a template that is no special one. -/
def quasiElements (run : Runner) (ctx : Context) (car cdr : Node) (span : Span) (depth : Nat) :
    Action EvalError Node :=
  match if depth = 1 then car.operandOf? QuoteMark.splice.name else none with
  | some operand => do
    let items ← spliced run ctx operand car.span
    let tail ← quasi run ctx cdr depth
    .adopt (.listWithTail items tail span)
  | none => do
    let first ← quasi run ctx car depth
    let rest ← quasi run ctx cdr depth
    .adopt (.pair none first rest span)

/-- What is no pair is its own copy. -/
theorem quasi_leaf (run : Runner) (ctx : Context) {n : Node} (h : n.car? = none) (depth : Nat) :
    quasi run ctx n depth = pure n := by
  cases n with
  | pair => cases h
  | _ => rfl

/-- The copy of a pair in a template is decided by the mark it begins with, if any. -/
theorem quasi_pair (run : Runner) (ctx : Context) (l : Option Label) (car cdr : Node) (span : Span)
    (depth : Nat) :
    quasi run ctx (.pair l car cdr span) depth = match templateForm? car cdr with
      | some (.unquote, operand) =>
        if depth = 1 then run (.eval operand ctx)
        else quasi run ctx operand (depth - 1) >>= rewrap .unquote span
      | some (.splice, operand) =>
        if depth = 1 then .fail (.specialForm .strayedSplice span)
        else quasi run ctx operand (depth - 1) >>= rewrap .splice span
      | some (.quasiquote, operand) =>
        quasi run ctx operand (depth + 1) >>= rewrap .quasiquote span
      | some (.quote, _) => quasiElements run ctx car cdr span depth
      | none => quasiElements run ctx car cdr span depth := by
  conv => lhs; unfold quasi
  dsimp only
  split
  · next name _ _ operand _ _ =>
    show _ = match (templateMark? name).map fun mark ↦ (mark, operand) with
      | some (.unquote, operand) => _
      | some (.splice, operand) => _
      | some (.quasiquote, operand) => _
      | some (.quote, _) => _
      | none => _
    cases templateMark? name with
    | none => rfl
    | some mark => cases mark <;> rfl
  · next hother =>
    have hnone : templateForm? car cdr = none := by
      unfold templateForm?
      split
      · exact (hother _ _ _ _ _ _ rfl rfl).elim
      · rfl
    rw [hnone]
    rfl

/-! ### Special pairs -/

/-- Three of the four marks are treated specially, each known by its symbol. -/
theorem templateMark?_eq_some_iff {name : String} {mark : QuoteMark} :
    templateMark? name = some mark ↔ name = mark.name ∧ mark ≠ .quote := by
  constructor
  · intro h
    unfold templateMark? at h
    split at h
    · next e => cases h; exact ⟨e, nofun⟩
    · split at h
      · next e => cases h; exact ⟨e, nofun⟩
      · split at h
        · next e => cases h; exact ⟨e, nofun⟩
        · cases h
  · rintro ⟨rfl, hquote⟩
    cases mark with
    | quote => exact absurd rfl hquote
    | _ => rfl

/-- The two parts of a pair are the list of the symbol of a mark and one operand. -/
inductive IsMarked : QuoteMark → Node → Node → Node → Prop
  | intro (mark : QuoteMark) (s : Span) (l : Option Label) (operand : Node) (s' s'' : Span) :
      IsMarked mark operand (.symbol mark.name s) (.pair l operand (.nil s') s'')

theorem templateForm?_eq_some_iff {car cdr operand : Node} {mark : QuoteMark} :
    templateForm? car cdr = some (mark, operand) ↔
      IsMarked mark operand car cdr ∧ mark ≠ .quote := by
  constructor
  · intro h
    unfold templateForm? at h
    split at h
    · obtain ⟨found, hfound, he⟩ := Option.map_eq_some_iff.mp h
      cases he
      obtain ⟨rfl, hquote⟩ := templateMark?_eq_some_iff.mp hfound
      exact ⟨.intro .., hquote⟩
    · cases h
  · rintro ⟨⟨_, s, l, _, s', s''⟩, hquote⟩
    show (templateMark? mark.name).map (fun mark ↦ (mark, operand)) = _
    rw [templateMark?_eq_some_iff.mpr ⟨rfl, hquote⟩]
    rfl

/-- A list of the symbol of a mark and one operand, as a node. -/
theorem operandOf?_eq_some_iff {n operand : Node} {mark : QuoteMark} :
    n.operandOf? mark.name = some operand ↔
      ∃ l car cdr s, n = .pair l car cdr s ∧ IsMarked mark operand car cdr := by
  constructor
  · intro h
    unfold Node.operandOf? at h
    split at h
    · next l name s l' operand' s' s'' s''' =>
      split at h
      · next e =>
        cases h
        subst e
        exact ⟨l, _, _, _, rfl, .intro ..⟩
      · cases h
    · cases h
  · rintro ⟨l, _, _, s, rfl, ⟨_, _, _, _, _, _⟩⟩
    exact if_pos rfl

namespace Node

/-- The node is the list of the symbol of a mark and one operand. -/
def IsTagged (mark : QuoteMark) (n : Node) : Prop := (n.operandOf? mark.name).isSome

instance (mark : QuoteMark) (n : Node) : Decidable (n.IsTagged mark) :=
  inferInstanceAs (Decidable ((n.operandOf? mark.name).isSome = true))

theorem isTagged_iff {mark : QuoteMark} {n : Node} :
    n.IsTagged mark ↔ ∃ l car cdr s operand, n = .pair l car cdr s ∧
      IsMarked mark operand car cdr := by
  rw [IsTagged, Option.isSome_iff_exists]
  constructor
  · rintro ⟨operand, h⟩
    obtain ⟨l, car, cdr, s, hn, hmarked⟩ := operandOf?_eq_some_iff.mp h
    exact ⟨l, car, cdr, s, operand, hn, hmarked⟩
  · rintro ⟨l, car, cdr, s, operand, hn, hmarked⟩
    exact ⟨operand, operandOf?_eq_some_iff.mpr ⟨l, car, cdr, s, hn, hmarked⟩⟩

/-- A pair is tagged with one mark at the most. -/
theorem isTagged_pair_iff {l : Option Label} {car cdr operand : Node} {s : Span} {mark : QuoteMark}
    (h : IsMarked mark operand car cdr) (other : QuoteMark) :
    (Node.pair l car cdr s).IsTagged other ↔ other = mark := by
  rw [isTagged_iff]
  constructor
  · rintro ⟨_, _, _, _, _, hn, hother⟩
    cases hn
    cases hother
    generalize hname : other.name = name at h
    cases h
    exact QuoteMark.name_injective hname
  · rintro rfl
    exact ⟨l, car, cdr, s, operand, rfl, h⟩

/-- A pair is no special one exactly if it is tagged with none of the three marks of templates. -/
theorem templateForm?_eq_none_iff {l : Option Label} {car cdr : Node} {s : Span} :
    templateForm? car cdr = none ↔
      ∀ mark, mark ≠ .quote → ¬ (Node.pair l car cdr s).IsTagged mark := by
  constructor
  · intro h mark hquote htagged
    obtain ⟨_, _, _, _, operand, hn, hmarked⟩ := isTagged_iff.mp htagged
    cases hn
    rw [templateForm?_eq_some_iff.mpr ⟨hmarked, hquote⟩] at h
    cases h
  · intro h
    cases e : templateForm? car cdr with
    | none => rfl
    | some found =>
      obtain ⟨hmarked, hquote⟩ := templateForm?_eq_some_iff.mp e
      exact absurd (isTagged_iff.mpr ⟨l, car, cdr, s, found.2, rfl, hmarked⟩) (h found.1 hquote)

end Node

/-! ### Induction -/

/-- Induction over a template, as a copy goes through it: to the operand of a mark, and else to both
parts of a pair. -/
theorem Node.template_induct {motive : Node → Prop}
    (leaf : ∀ n, n.car? = none → motive n)
    (marked : ∀ l car cdr s mark operand, templateForm? car cdr = some (mark, operand) →
      motive operand → motive (.pair l car cdr s))
    (plain : ∀ l car cdr s, templateForm? car cdr = none → motive car → motive cdr →
      motive (.pair l car cdr s)) (n : Node) : motive n := by
  -- The operand of a mark is the first part of the rest of the pair.
  suffices h : motive n ∧ ∀ a, n.car? = some a → motive a from h.1
  induction n with
  | pair l car cdr s ihcar ihcdr =>
    refine ⟨?_, fun a ha ↦ Option.some.inj ha ▸ ihcar.1⟩
    cases e : templateForm? car cdr with
    | none => exact plain l car cdr s e ihcar.1 ihcdr.1
    | some found =>
      refine marked l car cdr s found.1 found.2 e (ihcdr.2 _ ?_)
      obtain ⟨⟨_, _, _, _, _, _⟩, -⟩ := templateForm?_eq_some_iff.mp e
      rfl
  | _ => exact ⟨leaf _ rfl, nofun⟩

/-! ### Quasiquotation as a form -/

/-- A quasiquotation is done by copying its template, at depth one. -/
theorem next_quasiquote (run : Runner) {form template : Node}
    (h : form.operandOf? QuoteMark.quasiquote.name = some template) (ctx : Context) :
    (Step.eval form ctx).next run = Step.done <$> quasi run ctx template 1 := by
  obtain ⟨l, car, cdr, s, rfl, hmarked⟩ := operandOf?_eq_some_iff.mp h
  cases hmarked
  rfl

theorem runStep_quasiquote (fuel : Nat) {form template : Node}
    (h : form.operandOf? QuoteMark.quasiquote.name = some template) (ctx : Context) :
    (runStep (fuel + 2) (.eval form ctx) : Action EvalError Node) =
      quasi (runStep (fuel + 1)) ctx template 1 := by
  have hnext : (runStep (fuel + 2) (.eval form ctx) : Action EvalError Node) =
      (Step.eval form ctx).next (runStep (fuel + 1)) >>= runStep (fuel + 1) :=
    runStep_next _ fun _ ↦ nofun
  have hrule : (Step.eval form ctx).next (runStep (fuel + 1)) >>= runStep (fuel + 1) =
      (Step.done <$> quasi (runStep (fuel + 1)) ctx template 1) >>= runStep (fuel + 1) :=
    congrArg (Action.bind · (runStep (fuel + 1))) (next_quasiquote _ h ctx)
  -- The step that is handed back is done.
  have hdone : (Step.done <$> quasi (runStep (fuel + 1)) ctx template 1) >>= runStep (fuel + 1) =
      quasi (runStep (fuel + 1)) ctx template 1 >>= Pure.pure := bind_map_left _ _ _
  rw [hnext, hrule, hdone, bind_pure]

end MiniLisp
