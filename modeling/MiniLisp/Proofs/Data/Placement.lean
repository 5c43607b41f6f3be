import Mathlib.Data.List.Nodup
import MiniLisp.Proofs.Data.Renaming

/-!
# Where labels are given

When a list is adopted, its elements are adopted one after the other, each from some label on
(`Placed`). Two lists that have some elements in common give them other labels, as the elements stand
in other places and other pairs are given labels in between. A renaming takes the labels that the
elements have in one list to those that they have in the other (`Relocation`), so up to labels the
elements are the same ones in both.
-/

namespace MiniLisp

/-! ### Relocations -/

/-- Some labels that are to become others. Those before `first` are to keep their numbers, and those
from `stop` on are to be put behind the `offset`. -/
structure Relocation where
  first : Label
  stop : Label
  offset : Label
  sources : List Label
  targets : List Label
  first_le : first ≤ stop
  length_eq : sources.length = targets.length
  sources_nodup : sources.Nodup
  targets_nodup : targets.Nodup
  mem_sources : ∀ l ∈ sources, first ≤ l ∧ l < stop
  mem_targets : ∀ l ∈ targets, first ≤ l ∧ l < offset

namespace Relocation

variable (r : Relocation) {l : Label}

/-- What becomes of a label. -/
def label (l : Label) : Label :=
  if l < r.first then l
  else if h : r.sources.idxOf l < r.targets.length then r.targets[r.sources.idxOf l]
  else r.offset + l

theorem label_of_lt (h : l < r.first) : r.label l = l := if_pos h

theorem label_of_mem (h : l ∈ r.sources) :
    ∃ hidx : r.sources.idxOf l < r.targets.length, r.label l = r.targets[r.sources.idxOf l] := by
  have hidx : r.sources.idxOf l < r.targets.length := r.length_eq ▸ List.idxOf_lt_length_of_mem h
  exact ⟨hidx, (if_neg (Nat.not_lt.mpr (r.mem_sources l h).1)).trans (dif_pos hidx)⟩

theorem label_of_not_mem (hfirst : r.first ≤ l) (h : l ∉ r.sources) :
    r.label l = r.offset + l := by
  have hidx : ¬ r.sources.idxOf l < r.targets.length :=
    r.length_eq ▸ fun hlt ↦ h (List.idxOf_lt_length_iff.mp hlt)
  exact (if_neg (Nat.not_lt.mpr hfirst)).trans (dif_neg hidx)

theorem label_of_le (h : r.stop ≤ l) : r.label l = r.offset + l :=
  r.label_of_not_mem (Nat.le_trans r.first_le h) fun hmem ↦
    Nat.not_lt.mpr h (r.mem_sources l hmem).2

/-- What becomes of the labels lies apart: the old ones, the targets and those behind the offset. -/
theorem label_cases (l : Label) :
    (l < r.first ∧ r.label l = l) ∨
      (l ∈ r.sources ∧ r.first ≤ r.label l ∧ r.label l < r.offset) ∨
      (r.first ≤ l ∧ r.label l = r.offset + l) := by
  by_cases hold : l < r.first
  · exact .inl ⟨hold, r.label_of_lt hold⟩
  · by_cases hmem : l ∈ r.sources
    · obtain ⟨hidx, hlabel⟩ := r.label_of_mem hmem
      exact .inr (.inl ⟨hmem, hlabel ▸ r.mem_targets _ (List.getElem_mem hidx)⟩)
    · exact .inr (.inr ⟨Nat.not_lt.mp hold, r.label_of_not_mem (Nat.not_lt.mp hold) hmem⟩)

theorem label_injective : Function.Injective r.label := by
  intro l k h
  by_cases hmem : l ∈ r.sources ∧ k ∈ r.sources
  · obtain ⟨hidx, hlabel⟩ := r.label_of_mem hmem.1
    obtain ⟨hidx', hlabel'⟩ := r.label_of_mem hmem.2
    rw [hlabel, hlabel', r.targets_nodup.getElem_inj_iff] at h
    exact (List.idxOf_inj hmem.1).mp h
  · have hl := r.label_cases l
    have hk := r.label_cases k
    grind

/-- The relocation as a renaming. -/
def toRenaming : Renaming where
  toFun := r.label
  limit := r.stop
  injective := r.label_injective
  succ l h := by rw [r.label_of_le h, r.label_of_le (Nat.le_succ_of_le h), Nat.add_assoc]

theorem map_sources : r.sources.map r.label = r.targets := by
  refine List.ext_getElem (by rw [List.length_map, r.length_eq]) fun i hi hi' ↦ ?_
  have hlt : i < r.sources.length := r.length_eq ▸ hi'
  obtain ⟨hidx, hlabel⟩ := r.label_of_mem (List.getElem_mem hlt)
  rw [List.getElem_map, hlabel]
  congr 1
  exact r.sources_nodup.idxOf_getElem i hlt

/-- What only has old labels stays as it is. -/
theorem relabel_eq_self {n : Node} {limit : Label} (h : n.LabelsBelow limit)
    (hle : limit ≤ r.first) : n.relabel r.label = n :=
  h.relabel_eq fun _ hl ↦ r.label_of_lt (Nat.lt_of_lt_of_le hl hle)

/-- The relocation that only makes room. -/
def room (stop offset : Label) : Relocation where
  first := stop
  stop := stop
  offset := offset
  sources := []
  targets := []
  first_le := Nat.le_refl _
  length_eq := rfl
  sources_nodup := List.nodup_nil
  targets_nodup := List.nodup_nil
  mem_sources _ h := absurd h List.not_mem_nil
  mem_targets _ h := absurd h List.not_mem_nil

end Relocation

/-! ### Places of elements -/

/-- Nodes are adopted one after the other, from some label on and below another one; other labels may
be given in between. Gives the adopted nodes and the labels that they were given. -/
inductive Placed : Label → List Node → List Node → List Label → Label → Prop
  | nil {first stop : Label} (h : first ≤ stop) : Placed first [] [] [] stop
  | cons {first start stop : Label} {n : Node} {rest adopted : List Node} {given : List Label}
      (h : first ≤ start) (hrest : Placed (start + n.missing) rest adopted given stop) :
      Placed first (n :: rest) ((n.adopt start).1 :: adopted)
        (List.range' start n.missing ++ given) stop

namespace Placed

variable {first first' stop stop' : Label} {ns ms adopted adopted' : List Node}
  {given given' : List Label}

theorem of_le (h : Placed first ns adopted given stop) (hle : first' ≤ first) :
    Placed first' ns adopted given stop := by
  cases h with
  | nil h => exact .nil (Nat.le_trans hle h)
  | cons h hrest => exact .cons (Nat.le_trans hle h) hrest

theorem le (h : Placed first ns adopted given stop) : first ≤ stop := by
  induction h with
  | nil h => exact h
  | cons h _ ih => exact Nat.le_trans h (Nat.le_trans (Nat.le_add_right _ _) ih)

theorem append (h : Placed first ns adopted given stop)
    (h' : Placed stop ms adopted' given' stop') :
    Placed first (ns ++ ms) (adopted ++ adopted') (given ++ given') stop' := by
  induction h with
  | nil h => exact h'.of_le h
  | cons h _ ih =>
    rw [List.append_assoc]
    exact .cons h (ih h')

/-- The labels that are given are all in between. -/
theorem bounds (h : Placed first ns adopted given stop) : ∀ l ∈ given, first ≤ l ∧ l < stop := by
  induction h with
  | nil => exact nofun
  | @cons first start stop n _ _ _ h hrest ih =>
    intro l hl
    rcases List.mem_append.mp hl with hl | hl
    · have hrange := List.mem_range'_1.mp hl
      exact ⟨Nat.le_trans h hrange.1, Nat.lt_of_lt_of_le hrange.2 hrest.le⟩
    · have hbounds := ih l hl
      have hstart : first ≤ start + n.missing := Nat.le_add_right_of_le h
      exact ⟨Nat.le_trans hstart hbounds.1, hbounds.2⟩

/-- No label is given twice. -/
theorem nodup (h : Placed first ns adopted given stop) : given.Nodup := by
  induction h with
  | nil => exact List.nodup_nil
  | @cons first start stop n _ _ _ h hrest ih =>
    refine List.nodup_append.mpr ⟨List.nodup_range', ih, fun l hl k hk heq ↦ ?_⟩
    have hrange := List.mem_range'_1.mp hl
    have hbounds := hrest.bounds k hk
    exact absurd heq (Nat.ne_of_lt (Nat.lt_of_lt_of_le hrange.2 hbounds.1))

theorem length_eq (h : Placed first ns adopted given stop)
    (h' : Placed first' ns adopted' given' stop') : given.length = given'.length := by
  induction h generalizing first' adopted' given' with
  | nil =>
    cases h'
    rfl
  | cons _ _ ih =>
    cases h' with
    | cons _ hrest' =>
      rw [List.length_append, List.length_append, List.length_range', List.length_range',
        ih hrest']

theorem length_adopted (h : Placed first ns adopted given stop) : adopted.length = ns.length := by
  induction h with
  | nil => rfl
  | cons _ _ ih => rw [List.length_cons, List.length_cons, ih]

/-- In two places the same nodes are adopted to the same ones, up to the labels they are given. -/
theorem relabel_eq {f : Label → Label} (h : Placed first ns adopted given stop)
    (h' : Placed first' ns adopted' given' stop') (hgiven : given.map f = given')
    (hns : ∀ n ∈ ns, n.relabel f = n) : adopted.map (Node.relabel f) = adopted' := by
  induction h generalizing first' adopted' given' with
  | nil =>
    cases h'
    rfl
  | @cons _ start _ n rest adopted given _ _ ih =>
    cases h' with
    | @cons _ start' _ _ _ adopted' given' _ hrest' =>
      rw [List.map_append] at hgiven
      obtain ⟨hfirst, hlast⟩ := List.append_inj hgiven
        (by rw [List.length_map, List.length_range', List.length_range'])
      have hlabels : ∀ k < n.missing, f (start + k) = start' + k := by
        intro k hk
        have hget := congrArg (·[k]?) hfirst
        simpa [hk] using hget
      obtain ⟨hn, hrest⟩ := List.forall_mem_cons.mp hns
      rw [List.map_cons, n.adopt_relabel_of f hlabels, hn, ih hrest' hlast hrest]

/-- Room behind some elements does not change them. -/
theorem map_room (h : Placed first ns adopted given stop) {limit : Label}
    (hns : ∀ n ∈ ns, n.LabelsBelow limit) (hlimit : limit ≤ stop') (hle : stop ≤ stop')
    (offset : Label) :
    adopted.map (Node.relabel (Relocation.room stop' offset).label) = adopted := by
  have hgiven : given.map (Relocation.room stop' offset).label = given :=
    (List.map_congr_left fun l hl ↦
      Relocation.label_of_lt _ (Nat.lt_of_lt_of_le (h.bounds l hl).2 hle)).trans (List.map_id given)
  exact h.relabel_eq h hgiven fun n hn ↦ Relocation.relabel_eq_self _ (hns n hn) hlimit

/-- When two lists of nodes are adopted one after the other, and elsewhere the other way round, a
relocation takes the labels that are given the first time to those of the second time. -/
theorem exists_relocation {ns ms ns₁ ms₁ ns₂ ms₂ : List Node} {left₁ right₁ left₂ right₂ : List Label}
    {mid₁ stop₁ mid₂ stop₂ offset : Label} (hns₁ : Placed first ns ns₁ left₁ mid₁)
    (hms₁ : Placed mid₁ ms ms₁ right₁ stop₁) (hms₂ : Placed first ms ms₂ right₂ mid₂)
    (hns₂ : Placed mid₂ ns ns₂ left₂ stop₂) (hoffset : stop₂ ≤ offset)
    (hold : ∀ n ∈ ns ++ ms, n.LabelsBelow first) :
    ∃ r : Relocation, r.first = first ∧ r.stop = stop₁ ∧ r.offset = offset ∧
      ns₁.map (Node.relabel r.label) = ns₂ ∧ ms₁.map (Node.relabel r.label) = ms₂ := by
  have hall₁ := hns₁.append hms₁
  have hall₂ := hms₂.append hns₂
  have hleft := hns₁.length_eq hns₂
  have hright := hms₁.length_eq hms₂
  let r : Relocation := {
    first, stop := stop₁, offset
    sources := left₁ ++ right₁, targets := left₂ ++ right₂
    first_le := hall₁.le
    length_eq := by rw [List.length_append, List.length_append, hleft, hright]
    sources_nodup := hall₁.nodup
    targets_nodup := List.perm_append_comm.nodup_iff.mp hall₂.nodup
    mem_sources := hall₁.bounds
    mem_targets := fun l hl ↦
      (hall₂.bounds l (List.mem_append.mpr (List.mem_append.mp hl).symm)).imp_right
        fun hlt ↦ Nat.lt_of_lt_of_le hlt hoffset }
  have hkept : ∀ n ∈ ns ++ ms, n.relabel r.label = n := fun n hn ↦
    r.relabel_eq_self (hold n hn) (Nat.le_refl _)
  obtain ⟨hgiven, hgiven'⟩ : left₁.map r.label = left₂ ∧ right₁.map r.label = right₂ :=
    List.append_inj (List.map_append.symm.trans r.map_sources) (by rw [List.length_map, hleft])
  exact ⟨r, rfl, rfl, rfl,
    hns₁.relabel_eq hns₂ hgiven fun n hn ↦ hkept n (List.mem_append_left _ hn),
    hms₁.relabel_eq hms₂ hgiven' fun n hn ↦ hkept n (List.mem_append_right _ hn)⟩

end Placed

namespace Node

/-- All pairs have their labels, except in procedures and macros. -/
def Adopted : Node → Prop
  | pair none _ _ _ => False
  | pair (some _) a d _ => a.Adopted ∧ d.Adopted
  | _ => True

/-- All pairs in a pair that has its label have theirs. -/
def Adoptable : Node → Prop
  | pair none a d _ => a.Adoptable ∧ d.Adoptable
  | pair (some _) a d _ => a.Adopted ∧ d.Adopted
  | _ => True

instance decidableAdopted : (n : Node) → Decidable n.Adopted
  | atom .. => .isTrue trivial
  | pair none _ _ _ => .isFalse id
  | pair (some _) a d _ => @instDecidableAnd _ _ (decidableAdopted a) (decidableAdopted d)
  | closure .. => .isTrue trivial
  | transformer .. => .isTrue trivial

instance decidableAdoptable : (n : Node) → Decidable n.Adoptable
  | atom .. => .isTrue trivial
  | pair none a d _ => @instDecidableAnd _ _ (decidableAdoptable a) (decidableAdoptable d)
  | pair (some _) a d _ => inferInstanceAs (Decidable (a.Adopted ∧ d.Adopted))
  | closure .. => .isTrue trivial
  | transformer .. => .isTrue trivial

theorem Adopted.adoptable {n : Node} (h : n.Adopted) : n.Adoptable := by
  cases n with
  | pair l => cases l with
    | none => exact h.elim
    | some l => exact h
  | _ => trivial

theorem Adopted.missing_eq {n : Node} (h : n.Adopted) : n.missing = 0 := by
  cases n with
  | pair l => cases l with
    | none => exact h.elim
    | some l => rfl
  | _ => rfl

theorem Adopted.items {n : Node} (h : n.Adopted) {items : List Node}
    (hitems : n.toList? = some items) : ∀ item ∈ items, item.Adopted := by
  induction n generalizing items with
  | atom a =>
    cases a with
    | nil =>
      cases hitems
      exact nofun
    | _ => cases hitems
  | pair l a d s _ ih =>
    cases l with
    | none => exact h.elim
    | some l =>
      rw [toList?_pair] at hitems
      obtain ⟨rest, hrest, rfl⟩ := Option.map_eq_some_iff.mp hitems
      exact List.forall_mem_cons.mpr ⟨h.1, ih h.2 hrest⟩
  | closure => cases hitems
  | transformer => cases hitems

theorem Adoptable.items {n : Node} (h : n.Adoptable) {items : List Node}
    (hitems : n.toList? = some items) : ∀ item ∈ items, item.Adoptable := by
  induction n generalizing items with
  | atom a =>
    cases a with
    | nil =>
      cases hitems
      exact nofun
    | _ => cases hitems
  | pair l a d s _ ih =>
    rw [toList?_pair] at hitems
    obtain ⟨rest, hrest, rfl⟩ := Option.map_eq_some_iff.mp hitems
    cases l with
    | none => exact List.forall_mem_cons.mpr ⟨h.1, ih h.2 hrest⟩
    | some l =>
      exact List.forall_mem_cons.mpr
        ⟨h.1.adoptable, fun item hitem ↦ (h.2.items hrest item hitem).adoptable⟩
  | closure => cases hitems
  | transformer => cases hitems

end Node

theorem Placed.of_adopted {items : List Node} (h : ∀ item ∈ items, item.Adopted)
    (first : Label) : Placed first items items [] first := by
  induction items with
  | nil => exact .nil (Nat.le_refl first)
  | cons item items ih =>
    obtain ⟨hitem, hitems⟩ := List.forall_mem_cons.mp h
    have hmissing := hitem.missing_eq
    have hcons : Placed first (item :: items) ((item.adopt first).1 :: items)
        (List.range' first item.missing ++ []) first :=
      .cons (Nat.le_refl first) (hmissing ▸ ih hitems)
    rwa [Node.adopt_of_missing hmissing, hmissing] at hcons

/-- Adopting a list adopts its elements one after the other. -/
theorem Node.Adoptable.placed {n : Node} (h : n.Adoptable) {items : List Node}
    (hitems : n.toList? = some items) (next : Label) :
    ∃ adopted given, (n.adopt next).1.toList? = some adopted ∧
      Placed next items adopted given (n.adopt next).2 := by
  induction n generalizing items next with
  | atom a =>
    cases a with
    | nil =>
      cases hitems
      exact ⟨[], [], rfl, .nil (Nat.le_refl next)⟩
    | _ => cases hitems
  | pair l a d s _ ih =>
    cases l with
    | none =>
      rw [toList?_pair] at hitems
      obtain ⟨rest, hrest, rfl⟩ := Option.map_eq_some_iff.mp hitems
      obtain ⟨adopted, given, hadopted, hplaced⟩ := ih h.2 hrest (a.adopt (next + 1)).2
      rw [adopt_new]
      refine ⟨(a.adopt (next + 1)).1 :: adopted, List.range' (next + 1) a.missing ++ given, ?_,
        .cons (Nat.le_succ next) (adopt_snd a (next + 1) ▸ hplaced)⟩
      rw [toList?_pair, hadopted]
      rfl
    | some l =>
      have hadopted : (pair (some l) a d s).Adopted := h
      exact ⟨items, [], hitems, .of_adopted (hadopted.items hitems) next⟩
  | closure => cases hitems
  | transformer => cases hitems

end MiniLisp
