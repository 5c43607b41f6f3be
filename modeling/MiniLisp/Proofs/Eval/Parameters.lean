import MiniLisp.Proofs.Data.Adoption
import MiniLisp.Proofs.Eval.Occurrence

/-!
# Binding parameters

A call of a procedure of the language either fails, because the number of arguments is wrong, or it
enters a new scope in which the parameters are bound (`apply_closure_binds`). The arguments are
neither lost nor doubled: each of the first ones is given for a name, and the others are the elements
of the list that the last parameter, if it is there for them, is bound to (`Params.Binds`).
-/

namespace MiniLisp

/-! ### Bindings -/

namespace Params

variable {p : Params} {args : List Node}

/-- A number of arguments goes with some parameters. -/
def Takes (p : Params) (given : Nat) : Prop :=
  match p.rest with
  | none => given = p.fixed.length
  | some _ => p.fixed.length ≤ given

theorem accepts_arity_iff {given : Nat} : p.arity.accepts given = true ↔ p.Takes given := by
  unfold arity Takes
  cases p.rest with
  | none => exact beq_iff_eq
  | some rest => exact decide_eq_true_iff

instance (given : Nat) : Decidable (p.Takes given) := decidable_of_iff _ accepts_arity_iff

theorem Takes.length_le (h : p.Takes args.length) : p.fixed.length ≤ args.length := by
  unfold Takes at h
  cases hrest : p.rest with
  | none => exact Nat.le_of_eq (by rw [hrest] at h; exact h.symm)
  | some rest => rw [hrest] at h; exact h

/-- The bindings are those of the parameters to the arguments. -/
structure Binds (p : Params) (args : List Node) (b : Bindings) : Prop where
  /-- A name has the argument in its place. It is the last place that counts if the name stands
  in several, and none does if the name is also the one for the arguments left over. -/
  fixed : ∀ before name after, p.fixed = before ++ name :: after → name ∉ after →
    p.rest ≠ some name →
      ∃ value, args[before.length]? = some value ∧ Bindings.find? name b = some value
  /-- The arguments are those with a place, followed by the elements of the list of those left
  over. The list is new, and arguments that are not labelled yet are labelled with it. -/
  rest : ∀ name, p.rest = some name → ∃ list items,
    Bindings.find? name b = some list ∧ list.toList? = some items ∧
      List.Forall₂ Node.IsAdoption (args.drop p.fixed.length) items ∧
      ((∀ arg ∈ args, arg.missing = 0) → args = args.take p.fixed.length ++ items)
  /-- Nothing else is bound. -/
  names : ∀ name, (Bindings.find? name b).isSome ↔ name ∈ p.fixed ∨ p.rest = some name

/-- The list of the arguments left over has them as its elements. -/
theorem exists_leftOver (p : Params) (args : List Node) (span : Span) (m : Machine) :
    ∃ leftOver m', p.leftOver args span m = .ok leftOver m' ∧ m'.store = m.store ∧
      (p.rest.isSome → ∃ items, leftOver.toList? = some items ∧
        List.Forall₂ Node.IsAdoption (args.drop p.fixed.length) items) := by
  unfold leftOver
  cases p.rest with
  | none => exact ⟨.nil span, m, rfl, rfl, nofun⟩
  | some rest =>
    let list : Node := .ofList (args.drop p.fixed.length) span
    exact ⟨(list.adopt m.label).1, { m with label := (list.adopt m.label).2 }, rfl, rfl,
      fun _ ↦ Node.toList?_adopt (Node.toList?_ofList _ span) m.label⟩

/-- The names that are bound are those of the parameters. -/
theorem mem_map_fst_bindings (h : p.Takes args.length) {leftOver : Node} {name : String} :
    name ∈ (p.bindings args leftOver).map Prod.fst ↔ name ∈ p.fixed ∨ p.rest = some name := by
  have hzip : (p.fixed.zip args).map Prod.fst = p.fixed := List.map_fst_zip h.length_le
  rw [bindings, List.map_append, hzip, List.mem_append]
  refine or_congr_right ?_
  cases p.rest with
  | none => exact iff_of_false List.not_mem_nil nofun
  | some rest => exact List.mem_singleton.trans (eq_comm.trans (Option.some_inj).symm)

/-- Names are paired with the arguments in their places. -/
theorem zip_eq_append {before after : List String} {name : String}
    (hplace : before.length < args.length) :
    (before ++ name :: after).zip args = before.zip (args.take before.length) ++
      (name, args[before.length]) :: after.zip (args.drop (before.length + 1)) := by
  have hargs : args = args.take before.length ++ args[before.length] ::
      args.drop (before.length + 1) := by
    rw [← List.drop_eq_getElem_cons hplace, List.take_append_drop]
  have hfront : before.length = (args.take before.length).length :=
    (List.length_take_of_le (Nat.le_of_lt hplace)).symm
  conv => lhs; rw [hargs, List.zip_append hfront, List.zip_cons_cons]

/-- A name in a place is given the argument there, and after it the names that follow are given
theirs. -/
theorem exists_bindings_eq (h : p.Takes args.length) {before after : List String} {name : String}
    (hfixed : p.fixed = before ++ name :: after) (leftOver : Node) :
    ∃ value front back, args[before.length]? = some value ∧
      p.bindings args leftOver = front ++ (name, value) :: back ∧
      ∀ other ∈ back.map Prod.fst, other ∈ after ∨ p.rest = some other := by
  have hplace : before.length < args.length := by
    have hlength := h.length_le
    rw [hfixed, List.length_append, List.length_cons] at hlength
    omega
  have hafter : ∀ other ∈ (after.zip (args.drop (before.length + 1))).map Prod.fst,
      other ∈ after := by
    intro other hother
    obtain ⟨⟨_, value⟩, hmem, rfl⟩ := List.mem_map.mp hother
    exact (List.of_mem_zip hmem).1
  cases hrest : p.rest with
  | none =>
    refine ⟨args[before.length], before.zip (args.take before.length),
      after.zip (args.drop (before.length + 1)), List.getElem?_eq_getElem hplace, ?_,
      fun other hother ↦ .inl (hafter other hother)⟩
    rw [bindings, hrest, hfixed, zip_eq_append hplace, List.append_nil]
  | some rest =>
    refine ⟨args[before.length], before.zip (args.take before.length),
      after.zip (args.drop (before.length + 1)) ++ [(rest, leftOver)],
      List.getElem?_eq_getElem hplace, ?_, fun other hother ↦ ?_⟩
    · rw [bindings, hrest, hfixed, zip_eq_append hplace, List.append_assoc, List.cons_append]
    · rw [List.map_append] at hother
      rcases List.mem_append.mp hother with hzip | hlast
      · exact .inl (hafter other hzip)
      · exact .inr (congrArg some (List.mem_singleton.mp hlast).symm)

/-- What a procedure is entered with are the bindings of its parameters to the arguments. -/
theorem binds_ofList (h : p.Takes args.length) {leftOver : Node}
    (hleft : p.rest.isSome → ∃ items, leftOver.toList? = some items ∧
      List.Forall₂ Node.IsAdoption (args.drop p.fixed.length) items) :
    p.Binds args (Bindings.ofList (p.bindings args leftOver)) where
  fixed before name after hfixed hafter hname := by
    obtain ⟨value, front, back, hvalue, hbindings, hback⟩ := exists_bindings_eq h hfixed leftOver
    refine ⟨value, hvalue, hbindings ▸ Bindings.find?_ofList_of_last value front fun hmem ↦ ?_⟩
    exact (hback name hmem).elim hafter hname
  rest name hname := by
    obtain ⟨items, hitems, hadopted⟩ := hleft (hname ▸ rfl)
    refine ⟨leftOver, items, ?_, hitems, hadopted, fun hargs ↦ ?_⟩
    · have hbindings : p.bindings args leftOver = p.fixed.zip args ++ (name, leftOver) :: [] := by
        rw [bindings, hname]
      rw [hbindings]
      exact Bindings.find?_ofList_of_last leftOver _ List.not_mem_nil
    · have hsame : items = args.drop p.fixed.length :=
        Node.eq_of_isAdoption hadopted fun arg harg ↦ hargs arg (List.mem_of_mem_drop harg)
      rw [hsame, List.take_append_drop]
  names name := by
    rw [Bindings.find?_isSome_iff, Bindings.mem_names_ofList, mem_map_fst_bindings h]

end Params

/-! ### Calls -/

section

variable {c : Closure} {args : List Node}

/-- A call with a wrong number of arguments fails whatever the way to run steps. -/
theorem next_closure_of_not_takes (hcount : ¬ c.params.Takes args.length) (ctx : Context)
    (span : Span) (m : Machine) :
    ∃ m', m'.store = m.store ∧ ∀ run, (Step.apply (.closure c) args ctx span).next run m =
      .error (.arguments (.closureCount c.name c.params.arity args.length) span) m' := by
  let noted : Machine := { m with trace := m.trace.map (.applying c.name args.length :: ·) }
  refine ⟨noted, rfl, fun run ↦ ?_⟩
  show c.enter run ctx span args noted = _
  rw [Closure.enter, if_neg (mt Params.accepts_arity_iff.mp hcount)]
  rfl

/-- Any other call enters a new scope, and does the body there. -/
theorem next_closure_of_takes (hcount : c.params.Takes args.length) (ctx : Context) (span : Span)
    (m : Machine) :
    ∃ b m', c.params.Binds args b ∧
      m'.store = m.store.add ⟨c.name, some (ctx.parent c.scope), b⟩ ∧
      ∀ run, (Step.apply (.closure c) args ctx span).next run m =
        sequence run (ctx.inside m.store.next) span c.body m' := by
  let noted : Machine := { m with trace := m.trace.map (.applying c.name args.length :: ·) }
  obtain ⟨leftOver, m₁, hleft, hstore, hitems⟩ := c.params.exists_leftOver args span noted
  let b := Bindings.ofList (c.params.bindings args leftOver)
  let scope : Scope := ⟨c.name, some (ctx.parent c.scope), b⟩
  refine ⟨b, { m₁ with store := m₁.store.add scope }, Params.binds_ofList hcount hitems,
    congrArg (Store.add · scope) hstore, fun run ↦ ?_⟩
  have hid : m.store.next = m₁.store.next := congrArg Store.next hstore.symm
  show c.enter run ctx span args noted = _
  rw [Closure.enter, if_pos (Params.accepts_arity_iff.mpr hcount), hid]
  exact Action.bind_of_ok hleft _

end

/-- **Binding parameters neither loses nor doubles arguments.** If their number does not go with the
parameters, a call of a procedure fails, no form of the body is evaluated, and no scope changes. Else
the call adds one scope to the store, in which the parameters are bound to the arguments and nothing
else is bound, and does the body there. -/
theorem apply_closure_binds (c : Closure) (args : List Node) (ctx : Context) (span : Span)
    (m : Machine) :
    (¬ c.params.Takes args.length → ∃ m', m'.store = m.store ∧
      (∀ fuel, runStep (fuel + 1) (.apply (.closure c) args ctx span) m =
        .error (.arguments (.closureCount c.name c.params.arity args.length) span) m') ∧
      ∀ q, ¬ Starts ⟨.step (.apply (.closure c) args ctx span), m⟩ q) ∧
    (c.params.Takes args.length → ∃ b m', c.params.Binds args b ∧
      m'.store = m.store.add ⟨c.name, some (ctx.parent c.scope), b⟩ ∧
      ∀ run, (Step.apply (.closure c) args ctx span).next run m =
        sequence run (ctx.inside m.store.next) span c.body m') := by
  refine ⟨fun hcount ↦ ?_, fun hcount ↦ next_closure_of_takes hcount ctx span m⟩
  obtain ⟨m', hstore, hfails⟩ := next_closure_of_not_takes hcount ctx span m
  refine ⟨m', hstore, fun fuel ↦ Action.bind_of_error (hfails (runStep fuel)) _, fun q hq ↦ ?_⟩
  cases hq with
  | nested fuel asks => exact not_asks hfails _ _ _ asks
  | next fuel hands => cases (hfails (runStep fuel)).symm.trans hands

/-- With the parameters `(x y x . y)`, the second `x` counts and `y` is the list of those left over.
-/
theorem apply_closure_binds_repeated :
    let p : Params := ⟨["x", "y", "x"], some "y"⟩
    let c : Closure := ⟨0, none, p, [], 0⟩
    let arg (name : String) : Node := .symbol name .nowhere
    let args : List Node := [arg "a", arg "b", arg "c", arg "d", arg "e"]
    ¬ p.Takes 2 ∧ p.Takes 5 ∧ ∃ b, p.Binds args b ∧ Bindings.find? "x" b = some (arg "c") ∧
      ∃ list, Bindings.find? "y" b = some list ∧ list.toList? = some [arg "d", arg "e"] ∧
      ∃ m', m'.store = Machine.initial.store.add ⟨none, some 0, b⟩ ∧
        (Step.apply (.closure c) args ⟨0, none⟩ .nowhere).next (runStep 0) .initial =
          .ok (.done (.undefined .nowhere)) m' := by
  intro p c arg args
  have hfew : ¬ p.Takes 2 := by decide
  have henough : p.Takes 5 := by decide
  obtain ⟨b, m', hbinds, hstore, hnext⟩ :=
    (apply_closure_binds c args ⟨0, none⟩ .nowhere .initial).2 henough
  obtain ⟨value, hvalue, hx⟩ := hbinds.fixed ["x", "y"] "x" [] rfl List.not_mem_nil (by decide)
  obtain ⟨list, items, hy, hitems, -, hargs⟩ := hbinds.rest "y" rfl
  have hall : args.take 3 ++ [arg "d", arg "e"] = args.take 3 ++ items := hargs (by decide)
  obtain rfl : items = [arg "d", arg "e"] := (List.append_cancel_left hall).symm
  cases hvalue
  exact ⟨hfew, henough, b, hbinds, hx, list, hy, hitems, m', hstore, hnext (runStep 0)⟩

end MiniLisp
