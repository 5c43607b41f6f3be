import MiniLisp.Token.Lexer
import Mathlib.Data.List.Pairwise

/-!
# Tokens tile the text

A text is its tokens and what stands between them, in order and without a gap: nothing is lost,
doubled or moved (`tokenize_tiles`). What stands between tokens is white space and comments only,
and a comment ends where its line does (`Lexer.Skipped`).

The lexer gives its tokens offsets as it goes. That these offsets are places in the text is the
content of `Lexer.Tiling`, which runs along the text as the lexer does and takes each offset from
the bytes in front of it. What it says of single tokens, of two tokens and of the stretches between
them follows by induction along the same way.
-/

namespace MiniLisp

/-- The span lies between characters of a text, where it covers a piece and has `after` behind it. -/
def Span.Covers (s : Span) (text piece after : List Char) : Prop :=
  ∃ before, text = before ++ (piece ++ after) ∧
    s = ⟨byteLength before, byteLength before + byteLength piece⟩

/-- What a span covers lies within the text. -/
theorem Span.Covers.stop_le {s : Span} {text piece after : List Char}
    (h : s.Covers text piece after) : s.stop ≤ byteLength text := by
  obtain ⟨before, rfl, rfl⟩ := h
  simp only [byteLength_append]
  omega

/-- A span that covers something is not empty. -/
theorem Span.Covers.start_lt_stop {s : Span} {text piece after : List Char}
    (h : s.Covers text piece after) (hpiece : piece ≠ []) : s.start < s.stop := by
  obtain ⟨before, rfl, rfl⟩ := h
  have hpos : byteLength piece ≠ 0 := fun hzero ↦ hpiece (byteLength_eq_zero_iff.mp hzero)
  show byteLength before < byteLength before + byteLength piece
  omega

/-- What a span covers is at the place where it starts. -/
theorem Span.Covers.eq_append {s : Span} {before rest piece after : List Char}
    (h : s.Covers (before ++ rest) piece after) (hstart : s.start = byteLength before) :
    rest = piece ++ after := by
  obtain ⟨before', hcut, rfl⟩ := h
  have hstart : byteLength before' = byteLength before := hstart
  have hsplit : splitBytes (byteLength before) (before ++ rest) = (before', piece ++ after) := by
    rw [hcut, ← hstart, splitBytes_byteLength]
  rw [splitBytes_byteLength] at hsplit
  exact (Prod.mk.inj hsplit).2

/-- A span ends as many bytes behind its start as what it covers has. -/
theorem Span.Covers.stop_eq {s : Span} {text piece after : List Char}
    (h : s.Covers text piece after) : s.stop = s.start + byteLength piece := by
  obtain ⟨before, -, rfl⟩ := h
  rfl

namespace Lexer

/-! ### Between tokens -/

/-- The text ends or a line break is next. -/
def AtLineEnd (cs : List Char) : Prop := ∀ c ∈ cs.head?, isLineBreak c = true

/-- A piece of text, in front of `rest`, that holds no token: separators, and comments that each go
on up to the end of their line. -/
inductive Skipped (rest : List Char) : List Char → Prop
  | nil : Skipped rest []
  | separator {c : Char} {cs : List Char} (hc : isSeparator c = true) (h : Skipped rest cs) :
      Skipped rest (c :: cs)
  | comment {body cs : List Char} (hbody : ∀ c ∈ body, isLineBreak c = false)
      (hend : AtLineEnd (cs ++ rest)) (h : Skipped rest cs) : Skipped rest (';' :: (body ++ cs))

/-- Tokens with what stands around them, in a text that begins at a byte offset. -/
inductive Tiling : Nat → List Char → List Token → Prop
  | done {offset : Nat} {gap : List Char} (hgap : Skipped [] gap) : Tiling offset gap []
  | token {offset : Nat} {gap text rest : List Char} {t : Token} {ts : List Token}
      (hgap : Skipped (text ++ rest) gap) (htext : text ≠ []) (ht : t.text = String.ofList text)
      (hstart : t.span.start = offset + byteLength gap)
      (hstop : t.span.stop = offset + byteLength gap + byteLength text)
      (h : Tiling t.span.stop rest ts) : Tiling offset (gap ++ (text ++ rest)) (t :: ts)

/-- More that is skipped in front of a text belongs to its first gap. -/
theorem Tiling.skip {offset : Nat} {piece cs : List Char} {ts : List Token}
    (h : Tiling (offset + byteLength piece) cs ts)
    (hskip : ∀ gap rest, cs = gap ++ rest → Skipped rest gap → Skipped rest (piece ++ gap)) :
    Tiling offset (piece ++ cs) ts := by
  cases h with
  | done hgap => exact .done (hskip _ _ (List.append_nil _).symm hgap)
  | token hgap htext ht hstart hstop h =>
    rw [← List.append_assoc]
    refine .token (hskip _ _ rfl hgap) htext ht ?_ ?_ h
    · rw [hstart, byteLength_append, Nat.add_assoc]
    · rw [hstop, byteLength_append, ← Nat.add_assoc]

/-! ### The tokens of a text -/

theorem atLineEnd_dropWhile (cs : List Char) :
    AtLineEnd (cs.dropWhile fun c ↦ !isLineBreak c) := by
  intro c hc
  have hhead := List.head?_dropWhile_not (fun c ↦ !isLineBreak c) cs
  rw [Option.mem_def.mp hc] at hhead
  simpa using hhead

/-- **The lexer tiles every text.** -/
theorem tiling_tokensFrom (offset : Nat) (cs : List Char) :
    Tiling offset cs (tokensFrom offset cs) := by
  induction offset, cs using tokensFrom.induct with
  | case1 offset =>
    rw [tokensFrom]
    exact .done .nil
  | case2 offset c rest hseparator ih =>
    rw [tokensFrom, if_pos hseparator]
    have ih : Tiling (offset + byteLength [c]) rest _ := ih
    exact ih.skip fun gap after _ hgap ↦ .separator hseparator hgap
  | case3 offset rest comment hseparator ih =>
    rw [tokensFrom, if_neg hseparator, if_pos rfl]
    have hsplit : rest = comment ++ rest.dropWhile fun c ↦ !isLineBreak c :=
      List.takeWhile_append_dropWhile.symm
    have hcomment : ∀ c ∈ comment, isLineBreak c = false := by
      intro c hc
      simpa using List.all_eq_true.mp List.all_takeWhile c hc
    -- The comment and its semicolon are skipped together.
    have hoffset : offset + ';'.utf8Size + byteLength comment =
        offset + byteLength (';' :: comment) := Nat.add_assoc _ _ _
    rw [hoffset] at ih
    have htiling := ih.skip fun gap after hcut hgap ↦
      Skipped.comment hcomment (hcut ▸ atLineEnd_dropWhile rest) hgap
    rw [List.cons_append, ← hsplit, ← hoffset] at htiling
    exact htiling
  | case4 offset c rest hseparator hcomment kind n hmunch text stop ih =>
    rw [tokensFrom, if_neg hseparator, if_neg hcomment, hmunch]
    have hsplit : c :: rest = text ++ rest.drop n := by
      rw [List.cons_append, List.take_append_drop]
    have htiling : Tiling offset ([] ++ (text ++ rest.drop n)) (⟨kind, String.ofList text,
        ⟨offset, stop⟩⟩ :: tokensFrom stop (rest.drop n)) :=
      .token .nil (List.cons_ne_nil _ _) rfl rfl rfl ih
    rw [List.nil_append, ← hsplit] at htiling
    exact htiling

theorem tiling_tokenize (source : String) : Tiling 0 source.toList (tokenize source) :=
  tiling_tokensFrom 0 source.toList

/-! ### Places in the whole text -/

/-- Every token covers its text. -/
theorem Tiling.covers {before cs : List Char} {ts : List Token}
    (h : Tiling (byteLength before) cs ts) {t : Token} (ht : t ∈ ts) :
    t.text.toList ≠ [] ∧ ∃ after, t.span.Covers (before ++ cs) t.text.toList after := by
  induction ts generalizing before cs with
  | nil => exact absurd ht List.not_mem_nil
  | cons first ts ih =>
    cases h with
    | @token _ gap text rest _ _ hgap htext hfirst hstart hstop h =>
      have hstop' : first.span.stop = byteLength (before ++ gap ++ text) := by
        simp [hstop, Nat.add_assoc]
      rw [hstop'] at h
      rcases List.mem_cons.mp ht with rfl | ht
      · rw [hfirst, String.toList_ofList]
        have hspan : t.span = ⟨t.span.start, t.span.stop⟩ := rfl
        refine ⟨htext, rest, before ++ gap, by simp, ?_⟩
        rw [hspan, hstart, hstop, byteLength_append]
      · have hrest := ih h ht
        simpa using hrest

/-- A token begins after the offset that the tokens are counted from. -/
theorem Tiling.offset_le {offset : Nat} {cs : List Char} {ts : List Token}
    (h : Tiling offset cs ts) {t : Token} (ht : t ∈ ts) : offset ≤ t.span.start := by
  induction ts generalizing offset cs with
  | nil => exact absurd ht List.not_mem_nil
  | cons first ts ih =>
    cases h with
    | token hgap htext hfirst hstart hstop h =>
      rcases List.mem_cons.mp ht with rfl | ht
      · omega
      · have hle := ih h ht
        omega

/-- A token ends before the ones after it begin. -/
theorem Tiling.pairwise {offset : Nat} {cs : List Char} {ts : List Token}
    (h : Tiling offset cs ts) : ts.Pairwise fun t u ↦ t.span.stop ≤ u.span.start := by
  induction ts generalizing offset cs with
  | nil => exact .nil
  | cons first ts ih =>
    cases h with
    | token hgap htext hfirst hstart hstop h =>
      exact .cons (fun t ht ↦ h.offset_le ht) (ih h)

/-- The spans of what stands in front of the tokens, between two of them and behind the last one, in
a text from one offset to another. -/
def gaps (start stop : Nat) : List Token → List Span
  | [] => [⟨start, stop⟩]
  | t :: ts => ⟨start, t.span.start⟩ :: gaps t.span.stop stop ts

/-- Between the tokens nothing stands but what is skipped. -/
theorem Tiling.skipped {before cs : List Char} {ts : List Token}
    (h : Tiling (byteLength before) cs ts) {gap : Span}
    (hgap : gap ∈ gaps (byteLength before) (byteLength (before ++ cs)) ts) :
    ∃ piece after, gap.Covers (before ++ cs) piece after ∧ Skipped after piece := by
  induction ts generalizing before cs with
  | nil =>
    cases h with
    | done hskipped =>
      obtain rfl := List.mem_singleton.mp hgap
      refine ⟨cs, [], ⟨before, by simp, ?_⟩, hskipped⟩
      rw [byteLength_append]
  | cons first ts ih =>
    cases h with
    | @token _ piece text rest _ _ hskipped htext hfirst hstart hstop h =>
      rcases List.mem_cons.mp hgap with rfl | hgap
      · exact ⟨piece, text ++ rest, ⟨before, rfl, by rw [hstart]⟩, hskipped⟩
      · have hstop' : first.span.stop = byteLength (before ++ piece ++ text) := by
          simp [hstop, Nat.add_assoc]
        rw [hstop'] at h hgap
        have hrest := @ih _ _ h
        simp only [List.append_assoc] at hrest hgap ⊢
        exact hrest hgap

/-- Two tokens have no character in common. -/
theorem Tiling.disjoint {offset : Nat} {cs : List Char} {ts : List Token} (h : Tiling offset cs ts)
    {t u : Token} (ht : t ∈ ts) (hu : u ∈ ts) (hne : t ≠ u) :
    t.span.stop ≤ u.span.start ∨ u.span.stop ≤ t.span.start := by
  let Apart (t u : Token) : Prop := t.span.stop ≤ u.span.start ∨ u.span.stop ≤ t.span.start
  have hsymm : Std.Symm Apart := ⟨fun _ _ ↦ Or.symm⟩
  have hapart : ts.Pairwise Apart := h.pairwise.imp Or.inl
  exact hapart.forall ht hu hne

end Lexer

/-- **Tokenizing loses nothing.** The span of every token runs forwards, lies between characters of
the text and covers the text of the token; the tokens stand one behind the other; and in front of
them, between two of them and behind the last one there is nothing but white space and comments. -/
theorem tokenize_tiles (source : String) :
    (∀ t ∈ tokenize source, t.span.start < t.span.stop ∧ t.span.stop ≤ byteLength source.toList ∧
      ∃ after, t.span.Covers source.toList t.text.toList after) ∧
    (tokenize source).Pairwise (fun t u ↦ t.span.stop ≤ u.span.start) ∧
    ∀ gap ∈ Lexer.gaps 0 (byteLength source.toList) (tokenize source),
      ∃ piece after, gap.Covers source.toList piece after ∧ Lexer.Skipped after piece := by
  have htiling : Lexer.Tiling (byteLength []) source.toList (tokenize source) :=
    Lexer.tiling_tokenize source
  refine ⟨fun t ht ↦ ?_, htiling.pairwise, fun gap hgap ↦ htiling.skipped hgap⟩
  obtain ⟨htext, after, hcovers⟩ := htiling.covers ht
  exact ⟨hcovers.start_lt_stop htext, hcovers.stop_le, after, hcovers⟩

end MiniLisp
