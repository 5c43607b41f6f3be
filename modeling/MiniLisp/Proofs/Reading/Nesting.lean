import MiniLisp.Proofs.Reading.Spans

/-!
# Spans of what is read are nested

In a form that is read, the spans of the two parts of a pair lie inside the span of the pair, and
the first ends before the second begins; and so do two forms of a program (`nests_of_read`). This
holds of all pairs, those that a list is made of included: an inner pair runs from its element to
the end of the list, so what follows the element is inside it.

A form spans from its first token to its last (`Derivation.span_value`). So the order of the tokens
is all that is needed: a list is closed behind its tail, the tail comes behind the elements, and the
elements come one behind the other (`Node.Nests.listWithTail`).
-/

namespace MiniLisp

/-- The span lies in another one. -/
def Span.Inside (s outer : Span) : Prop := outer.start ≤ s.start ∧ s.stop ≤ outer.stop

namespace Node

/-- All spans in a node run forwards within the first `length` bytes, and those of the two parts of
a pair lie inside the one of the pair, one behind the other. -/
inductive Nests (length : Nat) : Node → Prop
  | atom {a : Atom} {s : Span} (hs : s.Within length) : Nests length (.atom a s)
  | pair {l : Option Label} {a d : Node} {s : Span} (ha : Nests length a) (hd : Nests length d)
      (hs : s.Within length) (hcar : a.span.Inside s) (hcdr : d.span.Inside s)
      (horder : a.span.stop ≤ d.span.start) : Nests length (.pair l a d s)

namespace Nests

variable {length : Nat} {n : Node}

theorem within (h : n.Nests length) : n.span.Within length := by
  cases h with
  | atom hs => exact hs
  | pair _ _ hs _ _ _ => exact hs

/-- A node may be given a span that reaches further. -/
theorem withSpan (h : n.Nests length) {s : Span} (hs : s.Within length) (hn : n.span.Inside s) :
    (n.withSpan s).Nests length := by
  cases h with
  | atom _ => exact .atom hs
  | pair ha hd _ hcar hcdr horder =>
    exact .pair ha hd hs ⟨Nat.le_trans hn.1 hcar.1, Nat.le_trans hcar.2 hn.2⟩
      ⟨Nat.le_trans hn.1 hcdr.1, Nat.le_trans hcdr.2 hn.2⟩ horder

/-- A chain of elements that stand one behind the other, in a list that ends behind its tail. Its
span begins where the first element does, or the tail if there is none. -/
theorem chain {stop : Nat} {items : List Node} {tail : Node}
    (hitems : ∀ item ∈ items, item.Nests length ∧ item.span.stop ≤ tail.span.start)
    (horder : items.Pairwise fun a b ↦ a.span.stop ≤ b.span.start) (htail : tail.Nests length)
    (hstop : tail.span.stop ≤ stop) (hlength : stop ≤ length) :
    (chain stop items tail).Nests length ∧ (chain stop items tail).span.stop ≤ stop ∧
      ∀ offset, (∀ item ∈ items, offset ≤ item.span.start) → offset ≤ tail.span.start →
        offset ≤ (Node.chain stop items tail).span.start := by
  induction items with
  | nil => exact ⟨htail, hstop, fun _ _ h ↦ h⟩
  | cons item items ih =>
    obtain ⟨⟨hitem, hbefore⟩, hitems⟩ := List.forall_mem_cons.mp hitems
    obtain ⟨hfirst, horder⟩ := List.pairwise_cons.mp horder
    obtain ⟨hrest, hle, hstart⟩ := ih hitems horder
    have hbetween := hstart item.span.stop hfirst hbefore
    have hitem' := hitem.within.1
    have hrest' := hrest.within.1
    have hmax : max stop (Node.chain stop items tail).span.stop = stop := Nat.max_eq_left hle
    rw [chain_cons, hmax]
    refine ⟨.pair hitem hrest ⟨?_, hlength⟩ ⟨Nat.le_refl _, ?_⟩ ⟨?_, hle⟩ hbetween,
      Nat.le_refl _, fun offset hoffset _ ↦ hoffset item List.mem_cons_self⟩
    · show item.span.start ≤ stop
      omega
    · show item.span.stop ≤ stop
      omega
    · show item.span.start ≤ _
      omega

/-- A list around its elements and its tail. -/
theorem listWithTail {s : Span} {items : List Node} {tail : Node}
    (hitems : ∀ item ∈ items, item.Nests length ∧ s.start ≤ item.span.start ∧
      item.span.stop ≤ tail.span.start)
    (horder : items.Pairwise fun a b ↦ a.span.stop ≤ b.span.start) (htail : tail.Nests length)
    (hs : s.Within length) (hinside : tail.span.Inside s) :
    (listWithTail items tail s).Nests length := by
  obtain ⟨hchain, hstop, hstart⟩ := chain (fun item hitem ↦ ⟨(hitems item hitem).1,
    (hitems item hitem).2.2⟩) horder htail hinside.2 hs.2
  exact hchain.withSpan hs
    ⟨hstart s.start (fun item hitem ↦ (hitems item hitem).2.1) hinside.1, hstop⟩

/-- A form and the mark in front of it. The list of the two ends where the form does. -/
theorem tagged (hn : n.Nests length) {name : String} {mark : Span} (hmark : mark.start ≤ mark.stop)
    (hbefore : mark.stop ≤ n.span.start) : (tagged name mark n).Nests length := by
  obtain ⟨hforward, hlength⟩ := hn.within
  have hspan : mark.merge n.span = ⟨mark.start, n.span.stop⟩ := by
    show Span.mk (min mark.start n.span.start) (max mark.stop n.span.stop) = _
    rw [Span.mk.injEq]
    omega
  rw [Node.tagged, hspan, ofList]
  refine .listWithTail (List.forall_mem_cons.mpr ⟨⟨?_, Nat.le_refl _, ?_⟩,
    List.forall_mem_singleton.mpr ⟨hn, ?_, Nat.le_refl _⟩⟩) (List.pairwise_pair.mpr hbefore)
    (.atom ⟨Nat.le_refl _, hlength⟩) ⟨?_, hlength⟩ ⟨?_, Nat.le_refl _⟩
  · exact .atom ⟨hmark, by omega⟩
  · show mark.stop ≤ n.span.stop
    omega
  · show mark.start ≤ n.span.start
    omega
  · show mark.start ≤ n.span.stop
    omega
  · show mark.start ≤ n.span.stop
    omega

end Nests

end Node

namespace Derivation

/-! ### First and last tokens -/

/-- The last token of a form. -/
def last : Derivation → Token
  | atom token _ _ => token
  | sugar _ _ form _ => form.last
  | list _ _ closing _ _ => closing
  | dotted _ _ _ _ _ closing _ _ _ => closing

/-- The tokens of a form end with its last one. -/
theorem exists_tokens_eq_append_last (d : Derivation) : ∃ front, d.tokens = front ++ [d.last] := by
  induction d with
  | atom token value reads => exact ⟨[], rfl⟩
  | sugar mark token form marks ih =>
    obtain ⟨front, hfront⟩ := ih
    exact ⟨token :: front, by rw [tokens, hfront, last, List.cons_append]⟩
  | list opening items closing opens closes =>
    exact ⟨opening :: tokensOf items, by rw [tokens, last]; rfl⟩
  | dotted opening first items dot tail closing opens dots closes =>
    exact ⟨opening :: (first.tokens ++ tokensOf items ++ dot :: tail.tokens),
      by simp [tokens, last]⟩

theorem head_mem_tokens (d : Derivation) : d.head ∈ d.tokens := by
  rw [tokens_eq_cons]
  exact List.mem_cons_self

theorem last_mem_tokens (d : Derivation) : d.last ∈ d.tokens := by
  obtain ⟨front, hfront⟩ := d.exists_tokens_eq_append_last
  rw [hfront]
  exact List.mem_append_right _ List.mem_cons_self

variable {C : Nat → Prop} {limit : Nat}

/-- **A form spans from its first token to its last.** -/
theorem span_value (d : Derivation) (h : Ordered C limit d.tokens) :
    d.value.span = ⟨d.head.span.start, d.last.span.stop⟩ := by
  induction d with
  | atom token value reads =>
    obtain ⟨a, rfl, -, -⟩ := Reader.exists_atom_of_ok reads
    rfl
  | sugar mark token form marks ih =>
    rw [tokens] at h
    have hspan := ih (h.sublist (List.sublist_cons_self _ _))
    have htoken := (h.1 token List.mem_cons_self).start_le_stop
    have hlast := (h.1 form.last (List.mem_cons_of_mem _ form.last_mem_tokens)).start_le_stop
    have hbefore := (List.pairwise_cons.mp h.2).1
    have hhead' := hbefore form.head form.head_mem_tokens
    have hlast' := hbefore form.last form.last_mem_tokens
    rw [value, Node.tagged, Node.ofList, Node.span_listWithTail, hspan]
    show Span.mk (min token.span.start form.head.span.start)
      (max token.span.stop form.last.span.stop) = ⟨token.span.start, form.last.span.stop⟩
    rw [Span.mk.injEq]
    omega
  | list => exact Node.span_listWithTail _ _ _
  | dotted => exact Node.span_listWithTail _ _ _

/-- The forms of a row span from one of its tokens to another. -/
theorem exists_span_of_mem_valuesOf {ds : List Derivation} (h : Ordered C limit (tokensOf ds))
    {item : Node} (hitem : item ∈ valuesOf ds) :
    ∃ t ∈ tokensOf ds, ∃ u ∈ tokensOf ds, item.span = ⟨t.span.start, u.span.stop⟩ := by
  obtain ⟨d, hd, rfl⟩ := mem_valuesOf hitem
  have hsub := tokens_sublist_tokensOf hd
  exact ⟨d.head, hsub.subset d.head_mem_tokens, d.last, hsub.subset d.last_mem_tokens,
    d.span_value (h.sublist hsub)⟩

/-- The forms of a row stand one behind the other. -/
theorem pairwise_valuesOf {ds : List Derivation} (h : Ordered C limit (tokensOf ds)) :
    (valuesOf ds).Pairwise fun m n ↦ m.span.stop ≤ n.span.start := by
  induction ds with
  | nil => exact .nil
  | cons d ds ih =>
    rw [tokensOf] at h
    have hrest := h.sublist (List.sublist_append_right _ _)
    refine .cons (fun n hn ↦ ?_) (ih hrest)
    obtain ⟨t, ht, u, -, hspan⟩ := exists_span_of_mem_valuesOf hrest hn
    rw [hspan, d.span_value (h.sublist (List.sublist_append_left _ _))]
    exact (List.pairwise_append.mp h.2).2.2 d.last d.last_mem_tokens t ht

/-! ### Nesting -/

/-- The spans in a form are nested. -/
def SpansNested (C : Nat → Prop) (d : Derivation) : Prop :=
  ∀ limit, Ordered C limit d.tokens → d.value.Nests limit

theorem nests_valuesOf {ds : List Derivation} (hds : ∀ d ∈ ds, SpansNested C d)
    (h : Ordered C limit (tokensOf ds)) : ∀ item ∈ valuesOf ds, item.Nests limit := by
  intro item hitem
  obtain ⟨d, hd, rfl⟩ := mem_valuesOf hitem
  exact hds d hd limit (h.sublist (tokens_sublist_tokensOf hd))

/-- A list between two brackets, of which the elements stand between the opening one and the tail.
-/
theorem nests_bracketed {opening closing : Token} {items : List Derivation} {tail : Node}
    (hitems : ∀ d ∈ items, SpansNested C d) (h : Ordered C limit (tokensOf items))
    (hafter : ∀ t ∈ tokensOf items, opening.span.stop ≤ t.span.start)
    (hbefore : ∀ t ∈ tokensOf items, t.span.stop ≤ tail.span.start)
    (hopening : opening.span.Forward C limit) (hclosing : closing.span.Forward C limit)
    (htail : tail.Nests limit) (hstart : opening.span.stop ≤ tail.span.start)
    (hstop : tail.span.stop ≤ closing.span.stop) :
    (Node.listWithTail (valuesOf items) tail ⟨opening.span.start, closing.span.stop⟩).Nests
      limit := by
  have hopening' := hopening.start_le_stop
  have htail' := htail.within.1
  refine .listWithTail (fun item hitem ↦ ⟨nests_valuesOf hitems h item hitem, ?_⟩)
    (pairwise_valuesOf h) htail ⟨?_, hclosing.stop_le⟩ ⟨?_, hstop⟩
  · obtain ⟨t, ht, u, hu, hspan⟩ := exists_span_of_mem_valuesOf h hitem
    have ht' := hafter t ht
    have hu' := hbefore u hu
    rw [hspan]
    exact ⟨by show opening.span.start ≤ t.span.start; omega, hu'⟩
  · show opening.span.start ≤ closing.span.stop
    omega
  · show opening.span.start ≤ tail.span.start
    omega

theorem spansNested (d : Derivation) : SpansNested C d := by
  induction d with
  | atom token value reads =>
    intro limit h
    obtain ⟨a, rfl, -, -⟩ := Reader.exists_atom_of_ok reads
    have htoken := h.1 token List.mem_cons_self
    exact .atom ⟨htoken.start_le_stop, htoken.stop_le⟩
  | sugar mark token form marks ih =>
    intro limit h
    have hrest := h.sublist (List.sublist_cons_self _ _)
    have hbefore := (List.pairwise_cons.mp h.2).1 form.head form.head_mem_tokens
    refine (ih limit hrest).tagged (h.1 token List.mem_cons_self).start_le_stop ?_
    rw [form.span_value hrest]
    exact hbefore
  | list opening items closing opens closes ih =>
    intro limit h
    have hrest := h.sublist (List.sublist_cons_self _ _)
    have hafter := (List.pairwise_cons.mp h.2).1
    have hclosing := hrest.1 closing (List.mem_append_right _ List.mem_cons_self)
    have hclosing' := hclosing.start_le_stop
    have hlast := hafter closing (List.mem_append_right _ List.mem_cons_self)
    refine nests_bracketed ih (hrest.sublist (List.sublist_append_left _ _))
      (fun t ht ↦ hafter t (List.mem_append_left _ ht)) (fun t ht ↦ ?_)
      (h.1 opening List.mem_cons_self) hclosing (.atom ⟨Nat.le_refl _, hclosing.stop_le⟩) ?_
      (Nat.le_refl _)
    · have hbefore := (List.pairwise_append.mp hrest.2).2.2 t ht closing List.mem_cons_self
      exact Nat.le_trans hbefore hclosing'
    · exact Nat.le_trans hlast hclosing'
  | dotted opening first items dot tail closing opens dots closes ihfirst ihitems ihtail =>
    intro limit h
    have hall : ∀ d ∈ first :: items, SpansNested C d :=
      List.forall_mem_cons.mpr ⟨ihfirst, ihitems⟩
    have hrest : Ordered C limit (tokensOf (first :: items) ++ dot :: (tail.tokens ++ [closing])) :=
      h.sublist (List.sublist_cons_self _ _)
    have hbehind : Ordered C limit (tail.tokens ++ [closing]) :=
      hrest.sublist ((List.sublist_cons_self _ _).trans (List.sublist_append_right _ _))
    have htail := hbehind.sublist (List.sublist_append_left _ _)
    have hlast : closing ∈ tail.tokens ++ [closing] := List.mem_append_right _ List.mem_cons_self
    have hclosing := hbehind.1 closing hlast
    have hclosing' := hclosing.start_le_stop
    have hdot := (hrest.1 dot (List.mem_append_right _ List.mem_cons_self)).start_le_stop
    have hafter := (List.pairwise_cons.mp h.2).1
    obtain ⟨-, hdots, hitems⟩ := List.pairwise_append.mp hrest.2
    -- The dot stands between the elements and the tail.
    have hhead := (List.pairwise_cons.mp hdots).1 tail.head
      (List.mem_append_left _ tail.head_mem_tokens)
    have hopening := hafter dot (List.mem_append_right _ List.mem_cons_self)
    have hend := (List.pairwise_append.mp hbehind.2).2.2 tail.last tail.last_mem_tokens closing
      List.mem_cons_self
    have hstart : tail.value.span.start = tail.head.span.start := by rw [tail.span_value htail]
    have hstop : tail.value.span.stop = tail.last.span.stop := by rw [tail.span_value htail]
    refine nests_bracketed hall (hrest.sublist (List.sublist_append_left _ _))
      (fun t ht ↦ hafter t (List.mem_append_left _ ht)) (fun t ht ↦ ?_)
      (h.1 opening List.mem_cons_self) hclosing (ihtail limit htail) ?_ ?_
    · have hbefore := hitems t ht dot List.mem_cons_self
      omega
    · omega
    · omega

end Derivation

/-- **Spans of what is read are nested.** All spans in the forms of a program run forwards in its
text. In every pair the spans of the two parts lie inside the one of the pair, one behind the other;
and the forms stand one behind the other. -/
theorem nests_of_read {source : String} {forms : List Node} (h : read source = .ok forms) :
    (∀ form ∈ forms, form.Nests (byteLength source.toList)) ∧
      forms.Pairwise fun m n ↦ m.span.stop ≤ n.span.start := by
  obtain ⟨ds, htokens, rfl⟩ := Reader.exists_tokensOf_of_readTokens h
  have hordered := htokens ▸ ordered_tokenize source
  exact ⟨Derivation.nests_valuesOf (fun d _ ↦ d.spansNested) hordered,
    Derivation.pairwise_valuesOf hordered⟩

/-- The list holds a quotation, its tail comes behind it, and the next form behind both. -/
theorem nests_of_read_dotted : ∃ forms, read "('a . b) c" = .ok forms ∧ forms.length = 2 ∧
    (∀ form ∈ forms, form.Nests 10) ∧ forms.Pairwise fun m n ↦ m.span.stop ≤ n.span.start := by
  have htokens : tokenize "('a . b) c" = [⟨.leftParen, "(", ⟨0, 1⟩⟩, ⟨.quote, "'", ⟨1, 2⟩⟩,
      ⟨.symbol, "a", ⟨2, 3⟩⟩, ⟨.dot, ".", ⟨4, 5⟩⟩, ⟨.symbol, "b", ⟨6, 7⟩⟩,
      ⟨.rightParen, ")", ⟨7, 8⟩⟩, ⟨.symbol, "c", ⟨9, 10⟩⟩] := by decide +kernel
  have hread : read "('a . b) c" = .ok [.listWithTail [.tagged "quote" ⟨1, 2⟩ (.symbol "a" ⟨2, 3⟩)]
      (.symbol "b" ⟨6, 7⟩) ⟨0, 8⟩, .symbol "c" ⟨9, 10⟩] := by
    rw [read, htokens]
    rfl
  exact ⟨_, hread, rfl, nests_of_read hread⟩

end MiniLisp
