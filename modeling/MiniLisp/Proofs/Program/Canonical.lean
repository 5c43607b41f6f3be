import MiniLisp.Proofs.Program.Grounded

/-!
# Numbers in programs are canonical

A number may be kept in several forms, and the narrowest that holds it is the canonical one.
Programs only ever make canonical numbers: the reader does, and so does every operation, whatever it
is given. All else that evaluation does is to pass nodes on, to put them together and to take them
apart.

So however many programs are run one after the other, in a global scope or in any scope inside it,
in either mode and whether their forms fail or not, nothing that they bind or give has any other
number in it, and neither have the bodies of procedures and macros (`Session.all_canonical`).
-/

namespace MiniLisp

/-- The machines of programs that are run one after the other, from a fresh global scope on. -/
inductive Session : Machine → Prop
  | start (label : Label) (trace : Option (List Event)) :
      Session ⟨Store.empty.add .global, label, trace⟩
  /-- A scope without bindings inside another one. -/
  | child {m : Machine} (h : Session m) {outer : ScopeId} (houter : outer < m.store.next)
      (name : Option String) : Session { m with store := m.store.add ⟨name, some outer, []⟩ }
  | exec {m m' : Machine} (h : Session m) {ctx : Context} (hc : ctx.Within m.store.next)
      {fuel : Nat} {source : String} (hends : (exec fuel ctx source m).machine? = some m') :
      Session m'
  | execEach {m m' : Machine} (h : Session m) {ctx : Context} (hc : ctx.Within m.store.next)
      {fuel : Nat} {source : String} (hends : (execEach fuel ctx source m).machine? = some m') :
      Session m'
  /-- In the middle of a program, while one of its forms is evaluated. -/
  | during {m m' : Machine} (h : Session m) {ctx : Context} (hc : ctx.Within m.store.next)
      {source : String} {before rest : List Node} {form : Node}
      (hread : read source = .ok (before ++ form :: rest)) {fuel : Nat}
      {results : List (Except EvalError Node)}
      (hbefore : evaluateEach fuel ctx before m = .ok results m') (trace : Option (List Event))
      {p : Moment} (hoccurs : Occurs (.start form ctx { m' with trace := trace }) p) :
      Session p.machine

open Grounding in
theorem Session.grounded {m : Machine} (h : Session m) : m.Grounded True := by
  induction h with
  | start label trace =>
    exact (Machine.Grounded.empty label trace).add nofun (globalBindings_grounded True _)
  | child _ houter name ih =>
    refine ih.add ?_ nofun
    rintro _ ⟨⟩
    exact houter
  | exec _ hc hends ih => exact ((exec_agree _ hc _).of_machine? ih (Nat.le_refl _) hends).1
  | execEach _ hc hends ih => exact ((execEach_agree _ hc _).of_machine? ih (Nat.le_refl _) hends).1
  | @during m m' _ ctx hc source before rest form hread fuel results hbefore trace p hoccurs ih =>
    obtain ⟨hforms, hrest⟩ := List.forall_mem_append.mp (grounded_of_read hread True m.store.next)
    obtain ⟨hm', limit, hle, hle', -⟩ :=
      (evaluateEach_agree fuel hc hforms).of_ok ih (Nat.le_refl _) hbefore
    have hnext := Nat.le_trans hle hle'
    have hform : form.Grounded True m'.store.next := (hrest form List.mem_cons_self).mono hnext
    have htraced : Machine.Grounded True { m' with trace := trace } := ⟨hm'.linked, hm'.holds⟩
    exact (hoccurs.grounded (Moment.start_grounded htraced hform (hc.mono hnext))).1

open Grounding in
/-- **All numbers in programs are canonical.** Whenever programs were run, or one is running,
nothing that is bound in any scope has another number in it, and no value that any further program
gives does, be it run up to its first error or with all of its forms. -/
theorem Session.all_canonical {m : Machine} (h : Session m) :
    m.store.Holds Node.Canonical ∧
    ∀ (fuel : Nat) (ctx : Context) (source : String), ctx.Within m.store.next →
      (∀ values m', MiniLisp.exec fuel ctx source m = .ok values m' →
        ∀ value ∈ values, value.Canonical) ∧
      ∀ results m', MiniLisp.execEach fuel ctx source m = .ok results m' →
        ∀ value, .ok value ∈ results → value.Canonical := by
  have hm := h.grounded
  refine ⟨hm.holds.imp fun n hn ↦ hn.canonical trivial, fun fuel ctx source hc ↦ ⟨?_, ?_⟩⟩
  · intro values m' hexec value hvalue
    obtain ⟨-, limit, -, -, hvalues⟩ := (exec_agree fuel hc source).of_ok hm (Nat.le_refl _) hexec
    exact (hvalues value hvalue).canonical trivial
  · intro results m' hexec value hvalue
    obtain ⟨-, limit, -, -, hresults⟩ :=
      (execEach_agree fuel hc source).of_ok hm (Nat.le_refl _) hexec
    exact (hresults _ hvalue value rfl).canonical trivial

/-- In a scope inside a global one, and with that scope as the dynamic one, the greatest word and
one more is no word, and less one it is a word again. -/
theorem Session.all_canonical_word :
    let m : Machine := ⟨(Store.empty.add .global).add ⟨none, some 0, []⟩, 0, none⟩
    let source := "(define x 9223372036854775807) (define y (+ x 1)) (list y (- y 1))"
    Session m ∧ (⟨1, some 1⟩ : Context).Within m.store.next ∧ m.store.Holds Node.Canonical ∧
      ∃ values m', MiniLisp.exec 12 ⟨1, some 1⟩ source m = .ok values m' ∧
        values.map Node.text =
          ["#<undefined>", "#<undefined>", "(9223372036854775808 9223372036854775807)"] ∧
        ∀ value ∈ values, value.Canonical := by
  intro m source
  have hm : Session m :=
    (Session.start 0 none).child (show 0 < (Store.empty.add .global).next by decide) none
  have hc : (⟨1, some 1⟩ : Context).Within m.store.next :=
    ⟨by decide, fun active ha ↦ Option.some.inj ha ▸ by decide⟩
  have htexts : (MiniLisp.exec 12 ⟨1, some 1⟩ source m).value?.map (List.map Node.text) =
      some ["#<undefined>", "#<undefined>", "(9223372036854775808 9223372036854775807)"] := by
    decide +kernel
  obtain ⟨hstore, hrun⟩ := hm.all_canonical
  obtain ⟨values, m', hexec, htexts⟩ := Outcome.exists_of_map_value? htexts
  exact ⟨hm, hc, hstore, values, m', hexec, htexts, (hrun 12 _ source hc).1 values m' hexec⟩

end MiniLisp
