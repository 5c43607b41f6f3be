import MiniLisp.Proofs.Eval.Growth
import MiniLisp.Proofs.Reading.Spans
import MiniLisp.Program.Exec

/-!
# Programs on grounded machines

What is read from a text is grounded on any machine. It holds no procedures and no macros, and the
reader makes numbers in the narrowest form (`grounded_of_read`). So programs leave grounded machines
behind, whether their forms succeed or fail (`Grounding.exec_agree`, `Grounding.execEach_agree`).
-/

namespace MiniLisp

/-! ### What is read -/

/-- The number of an atom that was read is in the narrowest form. -/
theorem Reader.canonical_of_atom {t : Token} {x : Number} {s : Span}
    (h : Reader.atom t = .ok (.atom (.number x) s)) : x.Canonical := by
  unfold Reader.atom at h
  split at h
  case h_1 =>
    split at h
    · next n hn => cases h; exact Number.ofLiteral?_canonical hn
    · cases h
  case h_3 => split at h <;> cases h
  case h_4 =>
    dsimp only at h
    split at h <;> cases h
  all_goals cases h

namespace Derivation

variable {numbers : Prop} {limit : ScopeId}

theorem grounded_valuesOf {ds : List Derivation}
    (hds : ∀ d ∈ ds, d.value.Grounded numbers limit) :
    Node.AllGrounded numbers limit (valuesOf ds) := by
  intro item hitem
  obtain ⟨d, hd, rfl⟩ := mem_valuesOf hitem
  exact hds d hd

theorem grounded_value (d : Derivation) : d.value.Grounded numbers limit := by
  induction d with
  | atom token value reads =>
    obtain ⟨a, rfl, -, -⟩ := Reader.exists_atom_of_ok reads
    refine .atom fun _ x hx ↦ ?_
    subst hx
    exact Reader.canonical_of_atom reads
  | sugar mark token form marks ih =>
    exact .ofList (List.forall_mem_cons.mpr ⟨.symbol _ _, List.forall_mem_singleton.mpr ih⟩) _
  | list opening items closing opens closes ih => exact .ofList (grounded_valuesOf ih) _
  | dotted opening first items dot tail closing opens dots closes ihfirst ihitems ihtail =>
    have hitems := grounded_valuesOf (List.forall_mem_cons.mpr ⟨ihfirst, ihitems⟩)
    exact .listWithTail hitems ihtail _

end Derivation

/-- **What is read is grounded on any machine.** -/
theorem grounded_of_read {source : String} {forms : List Node} (h : read source = .ok forms)
    (numbers : Prop) (limit : ScopeId) : Node.AllGrounded numbers limit forms := by
  obtain ⟨ds, -, rfl⟩ := Reader.exists_tokensOf_of_readTokens h
  exact Derivation.grounded_valuesOf fun d _ ↦ d.grounded_value

/-- What a fresh global scope binds is grounded on any machine. -/
theorem globalBindings_grounded (numbers : Prop) (limit : ScopeId) :
    ∀ p ∈ globalBindings, p.2.Grounded numbers limit := by
  refine List.forall_mem_cons.mpr ⟨.nil _, fun p hp ↦ ?_⟩
  obtain ⟨b, -, rfl⟩ := List.mem_map.mp hp
  exact .leaf (a := .native b.native) nofun _

/-! ### Running programs -/

namespace Grounding

variable {numbers : Prop} {limit : ScopeId}

namespace Agree

variable {ε δ α : Type} {post : ScopeId → α → Prop} {x y : Action ε α}

theorem mapError (h : Agree numbers limit post x y) (f : ε → δ) :
    Agree numbers limit post (x.mapError f) (y.mapError f) := by
  intro m hm hle
  obtain ⟨heq, hends⟩ := h m hm hle
  unfold Action.mapError
  rw [← heq]
  cases e : x m <;> rw [e] at hends <;> exact ⟨rfl, hends⟩

/-- If an error is taken as a result, then nothing is known of that. -/
theorem attempt (h : Agree numbers limit post x y) :
    Agree numbers limit (fun limit' result ↦ Gives (post limit') result)
      (x.attempt : Action δ (Except ε α)) y.attempt := by
  intro m hm hle
  obtain ⟨heq, hends⟩ := h m hm hle
  unfold Action.attempt
  rw [← heq]
  cases e : x m with
  | ok value after =>
    rw [e] at hends
    obtain ⟨hafter, limit', hle', hnext, hv⟩ := hends
    exact ⟨rfl, hafter, limit', hle', hnext, .ok hv⟩
  | error cause after =>
    rw [e] at hends
    exact ⟨rfl, hends.1, limit, Nat.le_refl _, hends.2, .error cause⟩
  | outOfFuel => exact ⟨rfl, trivial⟩

end Agree

variable (fuel : Nat) {ctx : Context} (hc : ctx.Within limit)

include hc

theorem evaluateTop_agree {form : Node} (hform : form.Grounded numbers limit) :
    Agree numbers limit (Node.Grounded numbers) (evaluateTop fuel ctx form)
      (evaluateTop fuel ctx form) := by
  refine .bind .store fun limit₁ _ hle₁ _ ↦ .bind (.note _) fun limit₂ _ hle₂ _ ↦ ?_
  have hle : limit ≤ limit₂ := Nat.le_trans hle₁ hle₂
  exact evaluate_agree fuel (hform.mono hle) (hc.mono hle)

theorem evaluateAll_agree {forms : List Node} (hforms : Node.AllGrounded numbers limit forms) :
    Agree numbers limit (Node.AllGrounded numbers) (evaluateAll fuel ctx forms)
      (evaluateAll fuel ctx forms) := by
  induction forms generalizing limit with
  | nil => exact .pure nofun
  | cons form rest ih =>
    obtain ⟨hform, hrest⟩ := List.forall_mem_cons.mp hforms
    refine .bind (evaluateTop_agree fuel hc hform) fun limit₁ value hle₁ hv ↦ ?_
    refine .bind (ih (hc.mono hle₁) (.mono hrest hle₁)) fun limit₂ values hle₂ hvs ↦ .pure ?_
    exact List.forall_mem_cons.mpr ⟨hv.mono hle₂, hvs⟩

theorem evaluateEach_agree {forms : List Node} (hforms : Node.AllGrounded numbers limit forms) :
    Agree numbers limit
      (fun limit' results ↦ ∀ result ∈ results, Gives (Node.Grounded numbers limit') result)
      (evaluateEach fuel ctx forms) (evaluateEach fuel ctx forms) := by
  induction forms generalizing limit with
  | nil => exact .pure nofun
  | cons form rest ih =>
    obtain ⟨hform, hrest⟩ := List.forall_mem_cons.mp hforms
    refine .bind (evaluateTop_agree fuel hc hform).attempt fun limit₁ result hle₁ hr ↦ ?_
    refine .bind (ih (hc.mono hle₁) (.mono hrest hle₁)) fun limit₂ results hle₂ hrs ↦ .pure ?_
    exact List.forall_mem_cons.mpr ⟨fun value hv ↦ (hr value hv).mono hle₂, hrs⟩

/-- A program up to its first error. -/
theorem exec_agree (source : String) :
    Agree numbers limit (Node.AllGrounded numbers) (exec fuel ctx source)
      (exec fuel ctx source) := by
  unfold exec
  split
  · exact .fail _
  · next forms hread =>
    exact (evaluateAll_agree fuel hc (grounded_of_read hread numbers limit)).mapError _

/-- All forms of a program. -/
theorem execEach_agree (source : String) :
    Agree numbers limit
      (fun limit' results ↦ ∀ result ∈ results, Gives (Node.Grounded numbers limit') result)
      (execEach fuel ctx source) (execEach fuel ctx source) := by
  unfold execEach
  split
  · exact .fail _
  · next forms hread => exact evaluateEach_agree fuel hc (grounded_of_read hread numbers limit)

end Grounding

end MiniLisp
