import MiniLisp.Proofs.Eval.Invariant
import MiniLisp.Proofs.Eval.Parameters
import MiniLisp.Proofs.Scope.Chain

/-!
# Lexical and dynamic mode

An evaluation is started without a dynamic scope, or with the scope of the form as the dynamic one.
The mode then holds for all that occurs in it, however deep (`evaluate_mode`): either there is no
dynamic scope anywhere, or it is the scope of every form at the time when the form is evaluated.

So the rule for where a procedure or macro runs has two cases only. Its new scope stands inside the
one it was made in (lexical mode), or inside the one of the call (dynamic mode), and it is the scope
of everything that the body sets off directly.
-/

namespace MiniLisp

/-- The two ways to choose the scope around a body. -/
inductive Mode where
  | lexical | dynamic

namespace Mode

/-- The place in a scope. -/
def context : Mode → ScopeId → Context
  | lexical, scope => ⟨scope, none⟩
  | dynamic, scope => ⟨scope, some scope⟩

/-- The scope around the body of what was made in the scope `home` and is called in another one. -/
def parent : Mode → (call home : ScopeId) → ScopeId
  | lexical, _, home => home
  | dynamic, call, _ => call

variable (mode : Mode) (scope : ScopeId)

@[simp] theorem inside_context (inner : ScopeId) :
    (mode.context scope).inside inner = mode.context inner := by
  cases mode <;> rfl

@[simp] theorem parent_context (home : ScopeId) :
    (mode.context scope).parent home = mode.parent (mode.context scope).scope home := by
  cases mode <;> rfl

/-- Nothing is asked of an evaluation but that its places belong to a mode. -/
def discipline : Discipline where
  place ctx := ∃ scope, ctx = mode.context scope
  span _ := True
  code _ := True
  value _ := True
  reflection := True
  splices := True
  place_inside := by
    rintro _ ⟨scope, rfl⟩ inner
    exact ⟨inner, mode.inside_context scope inner⟩
  code_span _ := trivial
  code_parts _ := ⟨trivial, trivial⟩
  code_adopt _ _ := trivial
  code_macro _ _ := trivial
  code_splice _ _ := trivial
  value_of_code _ := trivial
  code_of_value _ _ _ := trivial
  value_parts _ := ⟨trivial, trivial⟩
  value_adopt _ _ := trivial
  leaf_span _ _ := trivial
  improper_span _ _ := trivial
  native_host _ _ := trivial
  value_atom _ _ := trivial
  value_pair _ _ _ := trivial
  value_list _ _ := trivial
  value_splice _ _ _ _ _ _ _ := trivial
  closure_forms _ _ _ := trivial
  value_closure _ _ := trivial
  transformer_forms _ := ⟨trivial, fun _ _ ↦ trivial⟩
  value_transformer _ _ _ _ _ _ _ _ _ := trivial

end Mode

/-! ### Places -/

/-- Anything may be bound where nothing is asked of values. -/
theorem Mode.holds (mode : Mode) (st : Store) : st.Holds mode.discipline.value :=
  fun _ _ _ _ _ ↦ trivial

/-- The place of an activity, if it has one, belongs to a mode. -/
def Activity.InMode (mode : Mode) (a : Activity) : Prop :=
  ∀ ctx, a.place? = some ctx → ∃ scope, ctx = mode.context scope

theorem Mode.good_iff (mode : Mode) (step : Step) :
    mode.discipline.Good step ↔ (Activity.step step).InMode mode := by
  cases step with
  | done value => exact ⟨fun _ ↦ nofun, fun _ ↦ trivial⟩
  | eval form ctx =>
    exact ⟨fun h ctx hctx ↦ Option.some.inj hctx ▸ h.2, fun h ↦ ⟨trivial, h ctx rfl⟩⟩
  | apply procedure args ctx span =>
    refine ⟨fun h ctx hctx ↦ Option.some.inj hctx ▸ h.2.2.1, fun h ↦ ⟨?_, ?_, h ctx rfl, trivial⟩⟩
    · cases procedure with
      | native => exact fun _ ↦ trivial
      | closure => exact fun _ _ ↦ trivial
    · exact fun _ _ ↦ trivial
  | loop condition body ctx span =>
    exact ⟨fun h ctx hctx ↦ Option.some.inj hctx ▸ h.2.2.1,
      fun h ↦ ⟨trivial, fun _ _ ↦ trivial, h ctx rfl, trivial⟩⟩

/-- What is set off in a mode belongs to it, and a call is made where what set it off goes on. -/
theorem Starts.inMode {mode : Mode} {p q : Moment} (h : Starts p q) (hp : p.activity.InMode mode) :
    q.activity.InMode mode ∧
      ∀ ctx, q.activity.callPlace? = some ctx → p.activity.place? = some ctx := by
  cases h with
  | @nested step step' m m' fuel asks =>
    have hstep : mode.discipline.Good step := (mode.good_iff step).mpr hp
    obtain ⟨hform, hgood⟩ :=
      Discipline.good_of_asks (fun _ _ hruns ↦ Discipline.next_agree hruns hstep)
        (mode.holds _) asks
    exact ⟨(mode.good_iff step').mp hgood,
      fun ctx hctx ↦ absurd (hform.callPlace?.symm.trans hctx) nofun⟩
  | @next step step' m m' fuel hands =>
    have hstep : mode.discipline.Good step := (mode.good_iff step).mpr hp
    have hruns : mode.discipline.Runs (runStep fuel) (runStep fuel) :=
      fun _ _ hs ↦ Discipline.runStep_agree fuel hs
    have hends := (Discipline.next_agree hruns hstep m (mode.holds _)).2
    rw [hands] at hends
    obtain ⟨-, hgood, hcalled⟩ := hends
    exact ⟨(mode.good_iff step').mp hgood, hcalled⟩
  | expand => exact ⟨hp, fun ctx hctx ↦ hctx⟩
  | @body t operands ctx span step m m' fuel asks =>
    have hplace : mode.discipline.place ctx := hp ctx rfl
    obtain ⟨hform, hgood⟩ :=
      Discipline.good_of_asks
        (fun _ _ hruns ↦ Discipline.expand_agree hruns hplace trivial (fun _ _ ↦ trivial) trivial)
        (mode.holds _) asks
    exact ⟨(mode.good_iff step).mp hgood,
      fun ctx hctx ↦ absurd (hform.callPlace?.symm.trans hctx) nofun⟩

/-! ### Frames -/

/-- Evaluation leaves every scope where it stands. -/
def standing (id outer : ScopeId) : Invariant where
  machine m := m.store.StandsIn id outer
  own _ := True
  relabel _ _ hm := hm
  retrace _ _ hm := hm
  add _ scope hm := hm.add scope
  own_next _ _ := trivial
  define _ _ _ _ _ hm := hm.define _ _ _
  assign _ _ _ _ _ hs hm := by
    obtain ⟨found, -, rfl⟩ := Option.map_eq_some_iff.mp hs
    exact hm.define _ _ _

theorem runStep_keeps_standing (id outer : ScopeId) (fuel : Nat) (step : Step) :
    (standing id outer).Keeps (fun _ ↦ True) (runStep fuel step) :=
  Invariant.runStep_keeps fuel step (by cases step <;> trivial)

/-- The step has no other place than the given one. -/
def Step.InPlace (place : Context) (step : Step) : Prop := ∀ ctx, step.place? = some ctx → ctx = place

section

variable {inv : Invariant} {run run' : Runner} {place : Context}
  (hkeeps : ∀ step, inv.Keeps (fun _ ↦ True) (run step))
  (hsame : ∀ step m, step.InPlace place → inv.machine m → run' step m = run step m)

include hkeeps hsame

/-- A body only asks for steps in its place, and hands back such a step. -/
theorem sequence_inPlace (span : Span) (body : List Node) {m : Machine} (hm : inv.machine m) :
    sequence run' place span body m = sequence run place span body m ∧
      inv.Holds (Step.InPlace place) (sequence run place span body m) := by
  induction body generalizing m with
  | nil => exact ⟨rfl, hm, nofun⟩
  | cons form rest ih =>
    have hform : (Step.eval form place).InPlace place := fun ctx hctx ↦ (Option.some.inj hctx).symm
    cases rest with
    | nil => exact ⟨rfl, hm, hform⟩
    | cons second rest =>
      have hafter := hkeeps (.eval form place) m hm
      show Action.bind (run' _) _ m = Action.bind (run _) _ m ∧
        inv.Holds _ (Action.bind (run _) _ m)
      unfold Action.bind
      rw [hsame _ m hform hm]
      cases e : run (.eval form place) m with
      | ok value after =>
        rw [e] at hafter
        exact ih hafter.1
      | error cause after =>
        rw [e] at hafter
        exact ⟨rfl, hafter⟩
      | outOfFuel => exact ⟨rfl, trivial⟩

/-- What a body asks for to its end is in its place too. -/
theorem sequence_run_inPlace (span : Span) (body : List Node) {m : Machine} (hm : inv.machine m) :
    (sequence run' place span body >>= run') m = (sequence run place span body >>= run) m := by
  obtain ⟨heq, hholds⟩ := sequence_inPlace hkeeps hsame span body hm
  show Action.bind _ _ m = Action.bind _ _ m
  unfold Action.bind
  rw [heq]
  cases e : sequence run place span body m with
  | ok last after =>
    rw [e] at hholds
    exact hsame last after hholds.2 hholds.1
  | error cause after => rfl
  | outOfFuel => rfl

end

/-- What a rule asks for is in a place, on machines with an invariant, if it ends alike with all ways
to run steps that agree on these. -/
theorem inPlace_of_asks {α : Type} (inv : Invariant) {place : Context}
    {rule : Runner → Action EvalError α} {run : Runner} {m m' : Machine} {step : Step}
    (hrule : ∀ run', (∀ step m, step.InPlace place → inv.machine m → run' step m = run step m) →
      rule run' m = rule run m)
    (h : Asks rule run m step m') : step.InPlace place ∧ inv.machine m' := by
  refine Classical.byContradiction fun hnot ↦ ?_
  obtain ⟨run', hsame, hne⟩ := h
  refine hne (hrule run' fun s n hs hn ↦ hsame s n ?_)
  rintro ⟨rfl, rfl⟩
  exact hnot ⟨hs, hn⟩

/-- A call of a procedure of the language fails at once, or it enters a scope and does the body
there. -/
theorem next_closure_cases (c : Closure) (args : List Node) (ctx : Context) (span : Span)
    (m : Machine) :
    (∃ cause m', ∀ run, (Step.apply (.closure c) args ctx span).next run m = .error cause m') ∨
      ∃ m', m'.store.StandsIn m.store.next (ctx.parent c.scope) ∧
        ∀ run, (Step.apply (.closure c) args ctx span).next run m =
          sequence run (ctx.inside m.store.next) span c.body m' := by
  by_cases hcount : c.params.Takes args.length
  · obtain ⟨b, m', -, hstore, hbody⟩ := next_closure_of_takes hcount ctx span m
    exact .inr ⟨m', hstore ▸ m.store.standsIn_add _ _ _, hbody⟩
  · obtain ⟨m', -, hfails⟩ := next_closure_of_not_takes hcount ctx span m
    exact .inl ⟨_, m', hfails⟩

theorem Activity.place?_of_entry? {a : Activity} {ctx : Context} {home : ScopeId}
    (h : a.entry? = some (ctx, home)) : a.place? = some ctx := by
  match a, h with
  | .step (.apply (.closure c) args ctx span), rfl => rfl
  | .expansion t operands ctx span, rfl => rfl

/-- What a procedure or a macro sets off when it is entered is in its new scope, which stands in the
one that the mode of the call says. -/
theorem Starts.frame {p q : Moment} (h : Starts p q) {ctx : Context} {home : ScopeId}
    (hentry : p.activity.entry? = some (ctx, home)) :
    (∀ place, q.activity.place? = some place → place = ctx.inside p.machine.store.next) ∧
      q.machine.store.StandsIn p.machine.store.next (ctx.parent home) := by
  cases h with
  | @nested step step' m m' fuel asks =>
    match step, hentry with
    | .apply (.closure c) args ctx span, rfl =>
      have hkeeps := runStep_keeps_standing m.store.next (ctx.parent c.scope) fuel
      refine inPlace_of_asks (standing m.store.next (ctx.parent c.scope)) ?_ asks
      intro run' hsame
      obtain ⟨cause, m₁, hfails⟩ | ⟨m₁, hm₁, hbody⟩ := next_closure_cases c args ctx span m
      · exact (hfails run').trans (hfails _).symm
      · have heq := (sequence_inPlace hkeeps hsame span c.body hm₁).1
        exact (hbody run').trans (heq.trans (hbody _).symm)
  | @next step step' m m' fuel hands =>
    match step, hentry with
    | .apply (.closure c) args ctx span, rfl =>
      have hkeeps := runStep_keeps_standing m.store.next (ctx.parent c.scope) fuel
      obtain ⟨cause, m₁, hfails⟩ | ⟨m₁, hm₁, hbody⟩ := next_closure_cases c args ctx span m
      · cases (hfails _).symm.trans hands
      · have hholds : (standing m.store.next (ctx.parent c.scope)).Holds
            (Step.InPlace (ctx.inside m.store.next))
            (sequence (runStep fuel) (ctx.inside m.store.next) span c.body m₁) :=
          (sequence_inPlace hkeeps (fun _ _ _ _ ↦ rfl) span c.body hm₁).2
        rw [(hbody _).symm.trans hands] at hholds
        exact ⟨hholds.2, hholds.1⟩
  | expand => cases hentry
  | @body t operands ctx span step m m' fuel asks =>
    cases hentry
    have hkeeps := runStep_keeps_standing m.store.next (ctx.parent t.scope) fuel
    refine inPlace_of_asks (standing m.store.next (ctx.parent t.scope)) ?_ asks
    intro run' hsame
    let scope : Scope :=
      ⟨none, some (ctx.parent t.scope), Bindings.ofList [(t.param, operands)]⟩
    let entered : Machine := { m with store := m.store.add scope }
    have hentered : entered.store.StandsIn m.store.next (ctx.parent t.scope) :=
      m.store.standsIn_add _ _ _
    exact sequence_run_inPlace hkeeps hsame span t.body hentered

/-! ### Evaluation -/

/-- **The mode of an evaluation is that of all that occurs in it.** What occurs in it is done in a
place of its mode: without a dynamic scope, or with the scope itself as the dynamic one. A call, of
a procedure or of a macro, is made in the place of what sets it off; and what it enters is a new
scope that stands, in dynamic mode, in the scope of the call and, in lexical mode, in the scope that
the procedure or the macro was made in. -/
theorem evaluate_mode (mode : Mode) {form : Node} {scope : ScopeId} {m : Machine} {p : Moment}
    (h : Occurs (.start form (mode.context scope) m) p) :
    (∀ ctx, p.activity.place? = some ctx → ∃ id, ctx = mode.context id) ∧
      ∀ q, Starts p q →
        (∀ ctx, q.activity.callPlace? = some ctx → p.activity.place? = some ctx) ∧
        ∀ ctx home, p.activity.entry? = some (ctx, home) →
          (∀ place, q.activity.place? = some place →
            place = mode.context p.machine.store.next) ∧
          q.machine.store.StandsIn p.machine.store.next (mode.parent ctx.scope home) := by
  have hmode : p.activity.InMode mode := by
    induction h with
    | refl => exact fun ctx hctx ↦ ⟨scope, (Option.some.inj hctx).symm⟩
    | tail _ hstarts ih => exact (hstarts.inMode ih).1
  refine ⟨hmode, fun q hq ↦ ⟨(hq.inMode hmode).2, fun ctx home hentry ↦ ?_⟩⟩
  obtain ⟨id, rfl⟩ := hmode ctx (Activity.place?_of_entry? hentry)
  have hframe := hq.frame hentry
  rwa [mode.inside_context, mode.parent_context] at hframe

/-- In dynamic mode, the frame of a procedure that was made in the scope 1 and is called in the
scope 0 stands in the scope 0, and its first form is evaluated with the frame as both scopes. -/
theorem evaluate_mode_caller :
    let x : Node := .symbol "x" .nowhere
    let f : Node := .closure 0 none ⟨[], none⟩ [x, x] 1 .nowhere
    let m : Machine := ⟨⟨#[⟨some "global", none, []⟩, ⟨none, some 0, []⟩]⟩, 1, none⟩
    let form : Node := .ofList [f] .nowhere
    ∃ call first : Moment, Occurs (.start form (Mode.dynamic.context 0) m) call ∧
      call.activity.entry? = some (⟨0, some 0⟩, 1) ∧ Starts call first ∧
      first.activity = .step (.eval x ⟨2, some 2⟩) ∧ first.machine.store.StandsIn 2 0 := by
  intro x f m form
  let c : Closure := ⟨0, none, ⟨[], none⟩, [x, x], 1⟩
  let place : Context := ⟨2, some 2⟩
  let called : Machine := { m with label := 2 }
  let entered : Machine := { called with store := m.store.add ⟨none, some 0, []⟩ }
  let call : Moment := ⟨.step (.apply (.closure c) [] ⟨0, some 0⟩ .nowhere), called⟩
  let first : Moment := ⟨.step (.eval x place), entered⟩
  have hcall : Occurs (.start form (Mode.dynamic.context 0) m) call :=
    Relation.ReflTransGen.single (.next 2 rfl)
  have hfirst : Starts call first :=
    .nested 2 (asks_first (fun run _ ↦ sequence run place .nowhere [x]) (fun _ ↦ rfl) _)
  obtain ⟨-, hframe⟩ := ((evaluate_mode .dynamic hcall).2 first hfirst).2 _ _ rfl
  exact ⟨call, first, hcall, rfl, hfirst, rfl, hframe⟩

end MiniLisp
