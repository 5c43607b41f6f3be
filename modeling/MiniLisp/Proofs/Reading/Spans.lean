import MiniLisp.Proofs.Data.Spans
import MiniLisp.Proofs.Reading.Grammar
import MiniLisp.Proofs.Token.Tiling
import Mathlib.Data.Nat.Basic
import Mathlib.Order.MinMax

/-!
# Spans of what is read

All spans in a form that is read run forwards from one place between characters of the text to
another (`spanned_of_read`), those of the inner pairs of lists included: a list is closed behind all
of its elements, and its tail ends where it does at the latest. The symbols in a form are those that
the text has, and the ones that quote marks stand for (`written_of_read`).

Both are shown along the derivation of the form, whose tokens stand one behind the other.
-/

namespace MiniLisp

/-- The offset is that of a place between characters of a text, or at one of its ends. -/
def IsCut (text : List Char) (offset : Nat) : Prop :=
  ∃ before after, text = before ++ after ∧ offset = byteLength before

theorem isCut_zero (text : List Char) : IsCut text 0 := ⟨[], text, rfl, rfl⟩

/-- The text ends behind any place in it. -/
theorem IsCut.le {text : List Char} {offset : Nat} (h : IsCut text offset) :
    offset ≤ byteLength text := by
  obtain ⟨before, after, rfl, rfl⟩ := h
  rw [byteLength_append]
  exact Nat.le_add_right _ _

/-- What a span covers begins and ends between characters. -/
theorem Span.Covers.isCut {s : Span} {text piece after : List Char}
    (h : s.Covers text piece after) : IsCut text s.start ∧ IsCut text s.stop := by
  obtain ⟨before, htext, rfl⟩ := h
  refine ⟨⟨before, piece ++ after, htext, rfl⟩, before ++ piece, after, ?_, ?_⟩
  · rw [htext, List.append_assoc]
  · rw [byteLength_append]

/-- The span runs forwards between offsets of a kind, and ends at `limit` at the latest. -/
structure Span.Forward (C : Nat → Prop) (limit : Nat) (s : Span) : Prop where
  start : C s.start
  stop : C s.stop
  start_le_stop : s.start ≤ s.stop
  stop_le : s.stop ≤ limit

namespace Span.Forward

variable {C : Nat → Prop} {limit : Nat} {a s t : Span}

theorem mono {limit' : Nat} (h : s.Forward C limit) (hle : limit ≤ limit') :
    s.Forward C limit' :=
  ⟨h.start, h.stop, h.start_le_stop, Nat.le_trans h.stop_le hle⟩

theorem at_stop (h : s.Forward C limit) : (Span.at_ s.stop).Forward C limit :=
  ⟨h.stop, h.stop, Nat.le_refl _, h.stop_le⟩

theorem merge (hs : s.Forward C limit) (ht : t.Forward C limit) : (s.merge t).Forward C limit where
  start := min_rec' C hs.start ht.start
  stop := max_rec' C hs.stop ht.stop
  start_le_stop := by
    have hs := hs.start_le_stop
    show min s.start t.start ≤ max s.stop t.stop
    omega
  stop_le := Nat.max_le.mpr ⟨hs.stop_le, ht.stop_le⟩

/-- The span of an inner pair of a list, of which the element begins before the list ends. -/
theorem inner (ha : a.Forward C limit) (hs : s.Forward C limit) (ht : t.Forward C limit)
    (hle : a.start ≤ s.stop) : Span.Forward C limit ⟨a.start, max s.stop t.stop⟩ where
  start := ha.start
  stop := max_rec' C hs.stop ht.stop
  start_le_stop := Nat.le_trans hle (Nat.le_max_left _ _)
  stop_le := Nat.max_le.mpr ⟨hs.stop_le, ht.stop_le⟩

end Span.Forward

namespace Reader

/-- An atom has the span of its token, and it is a symbol only if the token is that symbol. -/
theorem exists_atom_of_ok {t : Token} {n : Node} (h : atom t = .ok n) :
    ∃ a, n = .atom a t.span ∧ (∀ p, a ≠ .native p) ∧
      ∀ name, a = .symbol name → t.kind = .symbol ∧ name = t.text := by
  unfold atom at h
  split at h
  case h_5 hkind =>
    cases h
    exact ⟨_, rfl, nofun, fun name hname ↦ ⟨hkind, (Atom.symbol.inj hname).symm⟩⟩
  case h_4 =>
    dsimp only at h
    split at h
    · cases h; exact ⟨_, rfl, nofun, nofun⟩
    · cases h
  all_goals first
    | cases h; done
    | cases h; exact ⟨_, rfl, nofun, nofun⟩
    | split at h
      · cases h; exact ⟨_, rfl, nofun, nofun⟩
      all_goals cases h

end Reader

namespace Derivation

/-- The tokens of an element are among those of its row, in the same order. -/
theorem tokens_sublist_tokensOf {d : Derivation} {ds : List Derivation} (h : d ∈ ds) :
    List.Sublist d.tokens (tokensOf ds) := by
  induction ds with
  | nil => exact absurd h List.not_mem_nil
  | cons first ds ih =>
    rw [tokensOf]
    rcases List.mem_cons.mp h with rfl | h
    · exact List.sublist_append_left _ _
    · exact (ih h).trans (List.sublist_append_right _ _)

theorem mem_valuesOf {ds : List Derivation} {n : Node} (h : n ∈ valuesOf ds) :
    ∃ d ∈ ds, d.value = n := by
  induction ds with
  | nil => exact absurd h List.not_mem_nil
  | cons first ds ih =>
    rcases List.mem_cons.mp h with rfl | h
    · exact ⟨first, List.mem_cons_self, rfl⟩
    · obtain ⟨d, hd, hvalue⟩ := ih h
      exact ⟨d, List.mem_cons_of_mem _ hd, hvalue⟩

/-! ### Spans -/

/-- The tokens run forwards, one behind the other, up to an offset. -/
def Ordered (C : Nat → Prop) (limit : Nat) (ts : List Token) : Prop :=
  (∀ t ∈ ts, t.span.Forward C limit) ∧ ts.Pairwise fun t u ↦ t.span.stop ≤ u.span.start

variable {C : Nat → Prop} {limit : Nat}

theorem Ordered.sublist {ts us : List Token} (h : Ordered C limit us) (hsub : List.Sublist ts us) :
    Ordered C limit ts :=
  ⟨fun t ht ↦ h.1 t (hsub.subset ht), h.2.sublist hsub⟩

/-- The tokens in front of a token end before that token begins. -/
theorem Ordered.before {ts us : List Token} {t : Token} (h : Ordered C limit (ts ++ t :: us)) :
    Ordered C t.span.start ts := by
  obtain ⟨hforward, hpairwise⟩ := h
  obtain ⟨hts, -, hbetween⟩ := List.pairwise_append.mp hpairwise
  refine ⟨fun u hu ↦ ?_, hts⟩
  have hu' : u.span.Forward C limit := hforward u (List.mem_append_left _ hu)
  exact ⟨hu'.start, hu'.stop, hu'.start_le_stop, hbetween u hu t List.mem_cons_self⟩

/-- The spans in a form lie between its tokens. -/
def SpansForward (C : Nat → Prop) (d : Derivation) : Prop :=
  ∀ limit, Ordered C limit d.tokens → d.value.Spanned (Span.Forward C limit)

theorem spanned_valuesOf {ds : List Derivation} (hds : ∀ d ∈ ds, SpansForward C d)
    (h : Ordered C limit (tokensOf ds)) :
    ∀ item ∈ valuesOf ds, item.Spanned (Span.Forward C limit) := by
  intro item hitem
  obtain ⟨d, hd, rfl⟩ := mem_valuesOf hitem
  exact hds d hd limit (h.sublist (tokens_sublist_tokensOf hd))

/-- The whole list between two brackets, of which the elements end before the closing one. -/
theorem spanned_bracketed {opening closing : Token} {items : List Node} {tail : Node}
    (hopening : opening.span.Forward C limit) (hclosing : closing.span.Forward C limit)
    (hle : opening.span.stop ≤ closing.span.start)
    (hitems : ∀ item ∈ items, item.Spanned (Span.Forward C closing.span.start))
    (htail : tail.Spanned (Span.Forward C limit)) :
    (Node.listWithTail items tail ⟨opening.span.start, closing.span.stop⟩).Spanned
      (Span.Forward C limit) := by
  have hopening' := hopening.start_le_stop
  have hclosing' := hclosing.start_le_stop
  have hlimit := hclosing.stop_le
  have hforward : opening.span.start ≤ closing.span.stop := by omega
  have hwhole : Span.Forward C limit ⟨opening.span.start, closing.span.stop⟩ :=
    ⟨hopening.start, hclosing.stop, hforward, hlimit⟩
  refine .listWithTail (fun item hitem ↦ ?_) htail hwhole fun item hitem t ht ↦ ?_
  · exact (hitems item hitem).mono fun s hs ↦ hs.mono (by omega)
  · have hspan : item.span.Forward C closing.span.start := (hitems item hitem).span
    have hspan' := hspan.start_le_stop
    have hstop := hspan.stop_le
    refine (hspan.mono ?_).inner hwhole ht ?_
    · omega
    · show item.span.start ≤ closing.span.stop
      omega

theorem spansForward (d : Derivation) : SpansForward C d := by
  induction d with
  | atom token value reads =>
    intro limit h
    obtain ⟨a, rfl, -, -⟩ := Reader.exists_atom_of_ok reads
    exact .atom (h.1 token List.mem_cons_self)
  | sugar mark token form marks ih =>
    intro limit h
    have hmark : token.span.Forward C limit := h.1 token List.mem_cons_self
    have hform : form.value.Spanned (Span.Forward C limit) :=
      ih limit (h.sublist (List.sublist_cons_self _ _))
    have hwhole : (token.span.merge form.value.span).Forward C limit := hmark.merge hform.span
    have hitems : ∀ item ∈ [Node.symbol mark.name token.span, form.value],
        item.Spanned (Span.Forward C limit) :=
      List.forall_mem_cons.mpr ⟨.atom hmark, List.forall_mem_singleton.mpr hform⟩
    refine .ofList hitems hwhole hwhole.at_stop fun item hitem t ht ↦ ?_
    refine (hitems item hitem).span.inner hwhole ht ?_
    -- Each of the two elements begins before it ends, and the list ends behind both.
    show item.span.start ≤ max token.span.stop form.value.span.stop
    have hitem' := (hitems item hitem).span.start_le_stop
    rcases List.mem_cons.mp hitem with rfl | hitem
    · exact Nat.le_trans hitem' (Nat.le_max_left _ _)
    · obtain rfl := List.mem_singleton.mp hitem
      exact Nat.le_trans hitem' (Nat.le_max_right _ _)
  | list opening items closing opens closes ih =>
    intro limit h
    have hclosing : closing.span.Forward C limit :=
      h.1 closing (List.mem_cons_of_mem _ (List.mem_append_right _ List.mem_cons_self))
    have hle : opening.span.stop ≤ closing.span.start :=
      List.rel_of_pairwise_cons h.2 (List.mem_append_right _ List.mem_cons_self)
    have hbefore : Ordered C closing.span.start (tokensOf items) :=
      (h.sublist (List.sublist_cons_self _ _)).before
    have hnil : (Node.nil (.at_ closing.span.stop)).Spanned (Span.Forward C limit) :=
      .atom hclosing.at_stop
    exact spanned_bracketed (h.1 opening List.mem_cons_self) hclosing hle
      (spanned_valuesOf ih hbefore) hnil
  | dotted opening first items dot tail closing opens dots closes ihfirst ihitems ihtail =>
    intro limit h
    have hall : ∀ d ∈ first :: items, SpansForward C d :=
      List.forall_mem_cons.mpr ⟨ihfirst, ihitems⟩
    have hrest : Ordered C limit (tokensOf (first :: items) ++ dot :: (tail.tokens ++ [closing])) :=
      h.sublist (List.sublist_cons_self _ _)
    have hbehind : List.Sublist (tail.tokens ++ [closing])
        (tokensOf (first :: items) ++ dot :: (tail.tokens ++ [closing])) :=
      (List.sublist_cons_self _ _).trans (List.sublist_append_right _ _)
    have hlast : closing ∈ tail.tokens ++ [closing] := List.mem_append_right _ List.mem_cons_self
    have hclosing : closing.span.Forward C limit := hrest.1 closing (hbehind.subset hlast)
    have hle : opening.span.stop ≤ closing.span.start :=
      List.rel_of_pairwise_cons h.2 (hbehind.subset hlast)
    -- The elements end before the dot begins, and so before the bracket.
    have hdot : dot.span.stop ≤ closing.span.start :=
      List.rel_of_pairwise_cons (List.pairwise_append.mp hrest.2).2.1 hlast
    have hdot' : dot.span.Forward C limit :=
      hrest.1 dot (List.mem_append_right _ List.mem_cons_self)
    have hdot'' := hdot'.start_le_stop
    have hitems : ∀ item ∈ valuesOf (first :: items),
        item.Spanned (Span.Forward C closing.span.start) :=
      fun item hitem ↦ (spanned_valuesOf hall hrest.before item hitem).mono
        fun s hs ↦ hs.mono (by omega)
    have htail : tail.value.Spanned (Span.Forward C limit) :=
      ihtail limit ((hrest.sublist hbehind).sublist (List.sublist_append_left _ _))
    exact spanned_bracketed (h.1 opening List.mem_cons_self) hclosing hle hitems htail

/-! ### Symbols -/

/-- The symbol of a token, and the one that it stands for as a mark, have names with a property. -/
def NamesOf (N : String → Prop) (t : Token) : Prop :=
  (t.kind = .symbol → N t.text) ∧ ∀ mark : QuoteMark, t.kind = mark.tokenKind → N mark.name

variable {N : String → Prop}

theorem written_valuesOf {ds : List Derivation}
    (hds : ∀ d ∈ ds, (∀ t ∈ d.tokens, NamesOf N t) → d.value.Written N)
    (h : ∀ t ∈ tokensOf ds, NamesOf N t) : ∀ item ∈ valuesOf ds, item.Written N := by
  intro item hitem
  obtain ⟨d, hd, rfl⟩ := mem_valuesOf hitem
  exact hds d hd fun t ht ↦ h t ((tokens_sublist_tokensOf hd).subset ht)

theorem written_value (d : Derivation) (h : ∀ t ∈ d.tokens, NamesOf N t) : d.value.Written N := by
  induction d with
  | atom token value reads =>
    obtain ⟨a, rfl, hnative, hsymbol⟩ := Reader.exists_atom_of_ok reads
    refine .atom hnative fun name hname ↦ ?_
    obtain ⟨hkind, rfl⟩ := hsymbol name hname
    exact (h token List.mem_cons_self).1 hkind
  | sugar mark token form marks ih =>
    obtain ⟨htoken, hform⟩ := List.forall_mem_cons.mp h
    have hmark : (Node.symbol mark.name token.span).Written N :=
      .atom nofun fun name hname ↦ Atom.symbol.inj hname ▸ htoken.2 mark marks
    exact .ofList (List.forall_mem_cons.mpr ⟨hmark, List.forall_mem_singleton.mpr (ih hform)⟩) _
  | list opening items closing opens closes ih =>
    obtain ⟨-, hrest⟩ := List.forall_mem_cons.mp h
    exact .ofList (written_valuesOf ih (List.forall_mem_append.mp hrest).1) _
  | dotted opening first items dot tail closing opens dots closes ihfirst ihitems ihtail =>
    obtain ⟨-, hrest⟩ := List.forall_mem_cons.mp h
    obtain ⟨hitems, hbehind⟩ := List.forall_mem_append.mp hrest
    obtain ⟨-, htail⟩ := List.forall_mem_cons.mp hbehind
    refine .listWithTail ?_ (ihtail (List.forall_mem_append.mp htail).1) _
    exact written_valuesOf (List.forall_mem_cons.mpr ⟨ihfirst, ihitems⟩) hitems

end Derivation

/-! ### Forms of a text -/

/-- The tokens of a text run forwards between places in it, one behind the other. -/
theorem ordered_tokenize (source : String) : Derivation.Ordered (IsCut source.toList)
    (byteLength source.toList) (tokenize source) := by
  have htiling : Lexer.Tiling (byteLength []) source.toList (tokenize source) :=
    Lexer.tiling_tokenize source
  refine ⟨fun t ht ↦ ?_, htiling.pairwise⟩
  obtain ⟨htext, after, hcovers⟩ := htiling.covers ht
  exact ⟨hcovers.isCut.1, hcovers.isCut.2, Nat.le_of_lt (hcovers.start_lt_stop htext),
    hcovers.stop_le⟩

/-- **All spans in what is read run forwards in the text**, between places between characters. -/
theorem spanned_of_read {source : String} {forms : List Node} (h : read source = .ok forms) :
    ∀ form ∈ forms, form.Spanned
      (Span.Forward (IsCut source.toList) (byteLength source.toList)) := by
  obtain ⟨ds, htokens, rfl⟩ := Reader.exists_tokensOf_of_readTokens h
  exact Derivation.spanned_valuesOf (fun d _ ↦ d.spansForward) (htokens ▸ ordered_tokenize source)

/-- The symbols in what is read are those of the tokens of the text. -/
theorem written_of_read {N : String → Prop} {source : String} {forms : List Node}
    (h : read source = .ok forms) (hN : ∀ t ∈ tokenize source, Derivation.NamesOf N t) :
    ∀ form ∈ forms, form.Written N := by
  obtain ⟨ds, htokens, rfl⟩ := Reader.exists_tokensOf_of_readTokens h
  exact Derivation.written_valuesOf (fun d _ ↦ d.written_value) (htokens ▸ hN)

end MiniLisp
