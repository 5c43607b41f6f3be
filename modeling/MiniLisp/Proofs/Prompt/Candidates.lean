import MiniLisp.Prompt.Completion
import MiniLisp.Proofs.Scope.Visibility
import MiniLisp.Proofs.Text.ByteOrder

/-!
# Candidates

What is offered at the cursor are the rests of names that begin with the symbol in front of it. The
names are those that are visible in the scope and those of the special forms. A name may be found
several times, as scopes further out may bind it too and it may be the name of a special form
besides, but it is only offered once, and what is offered is in the order of its bytes
(`complete_candidates`).

Only the text in front of the cursor counts, and it is taken apart as if nothing followed it. So a
symbol is completed where it ends in front of the cursor, although it may go on behind it, and
within comments, strings and other tokens nothing is offered.
-/

namespace MiniLisp

namespace Store

/-! ### Names in order -/

theorem nodup_eraseDups (names : List String) : names.eraseDups.Nodup := by
  induction hlen : names.length using Nat.strongRecOn generalizing names with
  | ind n ih =>
    subst hlen
    cases names with
    | nil => exact List.nodup_nil
    | cons name names =>
      rw [List.eraseDups_cons, List.nodup_cons]
      refine ⟨by simp, ih _ ?_ _ rfl⟩
      exact Nat.lt_succ_of_le (List.length_filter_le _ _)

theorem mem_sorted {name : String} {names : List String} : name ∈ sorted names ↔ name ∈ names := by
  rw [sorted, List.mem_mergeSort, List.mem_eraseDups]

/-- Names are put in order, and each is kept once. -/
theorem sorted_pairwise (names : List String) : (sorted names).Pairwise (· < ·) := by
  have hle : (sorted names).Pairwise (· ≤ ·) := by
    refine (List.pairwise_mergeSort (fun a b c hab hbc ↦ ?_) (fun a b ↦ ?_) _).imp of_decide_eq_true
    · exact decide_eq_true (String.le_trans (of_decide_eq_true hab) (of_decide_eq_true hbc))
    · simpa using String.le_total a b
  have hne : (sorted names).Pairwise (· ≠ ·) :=
    (List.mergeSort_perm _ _).nodup_iff.mpr (nodup_eraseDups names)
  exact hle.imp₂ (fun _ _ hle hne ↦ Std.lt_of_le_of_ne hle hne) hne

end Store

namespace Prompt

/-! ### The symbol in front of the cursor -/

/-- The text ends in this symbol. -/
def EndsIn (text : String) (t : Token) : Prop :=
  (tokenize text).getLast? = some t ∧ t.kind = .symbol ∧ t.span.stop = byteLength text.toList

theorem symbolBefore?_of_endsIn {text : String} {t : Token} (h : EndsIn text t) :
    symbolBefore? text = some t.text := by
  obtain ⟨hlast, hkind, hstop⟩ := h
  simp only [symbolBefore?, hlast, if_pos (And.intro hkind hstop)]

theorem symbolBefore?_of_not_endsIn {text : String} (h : ∀ t, ¬ EndsIn text t) :
    symbolBefore? text = none := by
  unfold symbolBefore?
  split
  · next t hlast => exact if_neg fun hboth ↦ h t ⟨hlast, hboth⟩
  · rfl

/-- The text in front of a place between two characters. -/
theorem splitBytes_front (front back : String) :
    String.ofList (splitBytes (byteLength front.toList) (front ++ back).toList).1 = front := by
  rw [String.toList_append, splitBytes_byteLength, String.ofList_toList]

/-! ### What may be typed -/

theorem mem_typeable {st : Store} {scope : ScopeId} {name : String} :
    name ∈ typeable st scope ↔
      name ∈ SpecialForm.names ∨ ∃ value, st.get? name scope = some value := by
  rw [typeable, List.mem_append, Store.mem_identifiers_iff, ← Store.exists_get?_iff, or_comm]

theorem mem_remainders {names : List String} {stem rest : String} :
    rest ∈ names.filterMap (remainder? stem) ↔ stem ++ rest ∈ names := by
  simp only [List.mem_filterMap, remainder?_eq_some_iff, exists_eq_right]

end Prompt

open Prompt Text

/-- **Completion offers what may follow, and that in order.** If the text in front of the cursor
ends in a symbol then the candidates are strictly increasing in the order of their bytes, and a text
is one of them exactly if the symbol and this text together are the name of a special form or a name
that has a meaning in the scope. If it does not end in a symbol there are no candidates. Either way
they are to be put in at the cursor. -/
theorem complete_candidates (st : Store) (scope : ScopeId) (front back : String) :
    let offset := byteLength front.toList
    let found := complete st scope (front ++ back) offset
    found.start = offset ∧
    (∀ t, EndsIn front t →
      found.candidates.Pairwise (fun r s ↦ utf8Bytes r < utf8Bytes s) ∧
      ∀ rest, rest ∈ found.candidates ↔
        t.text ++ rest ∈ SpecialForm.names ∨
          ∃ value, st.get? (t.text ++ rest) scope = some value) ∧
    ((∀ t, ¬ EndsIn front t) → found.candidates = []) := by
  intro offset found
  refine ⟨rfl, fun t ht ↦ ?_, fun hnone ↦ ?_⟩
  · have hcandidates : found.candidates =
        Store.sorted ((typeable st scope).filterMap (remainder? t.text)) := by
      simp only [found, offset, complete, splitBytes_front, symbolBefore?_of_endsIn ht]
    rw [hcandidates]
    refine ⟨(Store.sorted_pairwise _).imp utf8Bytes_lt_of_lt, fun rest ↦ ?_⟩
    rw [Store.mem_sorted, mem_remainders, mem_typeable]
  · simp only [found, offset, complete, splitBytes_front, symbolBefore?_of_not_endsIn hnone]

/-- The symbol may become the name of a special form and a name that is bound. In a comment it is no
symbol. -/
theorem complete_candidates_symbol :
    let st := Store.empty.add ⟨none, none, [("quoted", .nil .nowhere)]⟩
    EndsIn "(quo" ⟨.symbol, "quo", ⟨1, 4⟩⟩ ∧
      "te" ∈ (complete st 0 ("(quo" ++ " x)") 4).candidates ∧
      "ted" ∈ (complete st 0 ("(quo" ++ " x)") 4).candidates ∧
      (∀ t, ¬ EndsIn "; quo" t) ∧ (complete st 0 ("; quo" ++ "") 5).candidates = [] := by
  intro st
  have hends : EndsIn "(quo" ⟨.symbol, "quo", ⟨1, 4⟩⟩ := by
    have htokens : tokenize "(quo" = [⟨.leftParen, "(", ⟨0, 1⟩⟩, ⟨.symbol, "quo", ⟨1, 4⟩⟩] := by
      decide +kernel
    exact ⟨by rw [htokens]; rfl, rfl, rfl⟩
  have hbound : ∃ value, st.get? "quoted" 0 = some value := by
    rw [Store.exists_get?_iff]
    exact ⟨0, by rw [Store.chain_zero]; exact List.mem_cons_self, by decide⟩
  have hnone (t : Token) : ¬ EndsIn "; quo" t := by
    have htokens : tokenize "; quo" = [] := by decide +kernel
    rintro ⟨hlast, -⟩
    rw [htokens] at hlast
    cases hlast
  obtain ⟨-, hsymbol, -⟩ := complete_candidates st 0 "(quo" " x)"
  obtain ⟨-, hcandidates⟩ := hsymbol _ hends
  obtain ⟨-, -, hempty⟩ := complete_candidates st 0 "; quo" ""
  exact ⟨hends, (hcandidates "te").mpr (.inl (by decide)), (hcandidates "ted").mpr (.inr hbound),
    hnone, hempty hnone⟩

end MiniLisp
