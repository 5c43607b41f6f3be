import MiniLisp.Prompt.Highlight
import MiniLisp.Proofs.Token.Tiling

/-!
# Colours in a line

A coloured line is read back here as a terminal reads it, without knowing how it came about. A
control sequence is the escape character, an opening bracket, parameters and the letter `m`. The
text is cut at these sequences (`cutControls`). With them taken out, what is left is what is seen
(`shown`), and what stands behind a sequence, up to the next one, is a coloured piece unless the
sequence ends a colour (`colouredPieces`).

A line that has no escape character of its own is seen as it was before it was coloured, and its
coloured pieces are tokens: each token that has a colour is one piece, at its place
(`highlight_shown`). This rests on the tiling of the line. The stretches between the tokens are
copied by their offsets and the tokens from what the lexer has kept of them, and the two fit
together (`paintFrom_cons`).
-/

namespace MiniLisp

namespace Prompt

/-! ### Control sequences -/

/-- The characters of parameters. -/
def isParameter (c : Char) : Bool := c.isDigit || c == ';'

/-- The parameters of a control sequence, given the text behind its escape character, and what
follows the sequence. -/
def control? : List Char → Option (List Char × List Char)
  | '[' :: rest => match rest.dropWhile isParameter with
    | 'm' :: after => some (rest.takeWhile isParameter, after)
    | _ => none
  | _ => none

theorem length_lt_of_control? {cs parameters after : List Char}
    (h : control? cs = some (parameters, after)) : after.length < cs.length := by
  unfold control? at h
  split at h
  · next rest =>
    split at h
    · next hrest =>
      cases h
      have hle := (List.dropWhile_sublist (p := isParameter) (l := rest)).length_le
      rw [hrest, List.length_cons] at hle
      rw [List.length_cons]
      omega
    · cases h
  · cases h

/-- A control sequence, by its parameters, with the text that stands behind it. -/
structure Stretch where
  parameters : List Char
  text : List Char
deriving DecidableEq

/-- A text cut at its control sequences: what stands in front of the first one, and the others. -/
def cutControls : List Char → List Char × List Stretch
  | [] => ([], [])
  | c :: rest =>
    if c = '\x1b' then
      match _ : control? rest with
      | some (parameters, after) =>
        let (text, more) := cutControls after
        ([], ⟨parameters, text⟩ :: more)
      | none =>
        let (text, more) := cutControls rest
        (c :: text, more)
    else
      let (text, more) := cutControls rest
      (c :: text, more)
termination_by cs => cs.length
decreasing_by
  · next hcontrol =>
    have hlt := length_lt_of_control? hcontrol
    simp only [List.length_cons]
    omega
  · simp
  · simp

/-- What is seen of a text: all but the control sequences. -/
def shown (cs : List Char) : List Char :=
  (cutControls cs).1 ++ (cutControls cs).2.flatMap Stretch.text

/-- A coloured piece of a text: the parameters of its colour, and what is seen, with the place that
it has in all that is seen. -/
structure ColouredPiece where
  parameters : List Char
  span : Span
  text : List Char
deriving DecidableEq

/-- The coloured pieces among stretches of text that begin at an offset. Parameters of a lone zero
end a colour. -/
def piecesFrom (offset : Nat) : List Stretch → List ColouredPiece
  | [] => []
  | s :: rest =>
    let stop := offset + byteLength s.text
    if s.parameters = ['0'] then piecesFrom stop rest
    else ⟨s.parameters, ⟨offset, stop⟩, s.text⟩ :: piecesFrom stop rest

/-- The coloured pieces of a text that is seen from an offset on. -/
def colouredFrom (offset : Nat) (cs : List Char) : List ColouredPiece :=
  piecesFrom (offset + byteLength (cutControls cs).1) (cutControls cs).2

/-- The coloured pieces of a text. -/
def colouredPieces (cs : List Char) : List ColouredPiece := colouredFrom 0 cs

/-! ### Reading what is written -/

/-- A text without escape characters is seen as it is. -/
theorem cutControls_append {text : List Char} (h : '\x1b' ∉ text) (cs : List Char) :
    cutControls (text ++ cs) = (text ++ (cutControls cs).1, (cutControls cs).2) := by
  induction text with
  | nil => rfl
  | cons c text ih =>
    obtain ⟨hc, htext⟩ := not_or.mp (mt List.mem_cons.mpr h)
    rw [List.cons_append, cutControls, if_neg (Ne.symm hc), ih htext]
    rfl

theorem control?_sequence {parameters : List Char} (h : ∀ c ∈ parameters, isParameter c = true)
    (cs : List Char) : control? ('[' :: (parameters ++ 'm' :: cs)) = some (parameters, cs) := by
  have hm : isParameter 'm' = false := by decide
  rw [control?, List.dropWhile_append_of_pos h, List.takeWhile_append_of_pos h,
    List.dropWhile_cons_of_neg (by simp [hm]), List.takeWhile_cons_of_neg (by simp [hm]),
    List.append_nil]
  rfl

theorem cutControls_sequence {parameters : List Char} (h : ∀ c ∈ parameters, isParameter c = true)
    (cs : List Char) : cutControls ('\x1b' :: '[' :: (parameters ++ 'm' :: cs)) =
      ([], ⟨parameters, (cutControls cs).1⟩ :: (cutControls cs).2) := by
  rw [cutControls, if_pos rfl]
  split
  · next found after hcontrol =>
    rw [control?_sequence h] at hcontrol
    cases hcontrol
    rfl
  · next hcontrol =>
    rw [control?_sequence h] at hcontrol
    cases hcontrol

/-- The parameters of colours are parameters, and none of them ends a colour. -/
theorem Colour.code_parameters (c : Colour) :
    (∀ d ∈ c.code.toList, isParameter d = true) ∧ c.code.toList ≠ ['0'] := by
  rw [← List.all_eq_true]
  cases c <;> decide

theorem Colour.toList_paint (c : Colour) (text : String) (cs : List Char) :
    (c.paint text).toList ++ cs = '\x1b' :: '[' :: (c.code.toList ++ 'm' ::
      (text.toList ++ '\x1b' :: '[' :: (['0'] ++ 'm' :: cs))) := by
  simp [Colour.paint]

/-- A text in a colour is one stretch, and the next one is what follows it. -/
theorem cutControls_paint (c : Colour) {text : String} (h : '\x1b' ∉ text.toList)
    (cs : List Char) : cutControls ((c.paint text).toList ++ cs) =
      ([], ⟨c.code.toList, text.toList⟩ :: ⟨['0'], (cutControls cs).1⟩ :: (cutControls cs).2) := by
  have hzero : ∀ d ∈ ['0'], isParameter d = true := List.forall_mem_singleton.mpr rfl
  rw [c.toList_paint, cutControls_sequence c.code_parameters.1, cutControls_append h,
    cutControls_sequence hzero, List.append_nil]

section

variable {text : List Char} (h : '\x1b' ∉ text) (offset : Nat) (cs : List Char)
include h

theorem shown_append : shown (text ++ cs) = text ++ shown cs := by
  rw [shown, cutControls_append h, shown, List.append_assoc]

theorem colouredFrom_append :
    colouredFrom offset (text ++ cs) = colouredFrom (offset + byteLength text) cs := by
  rw [colouredFrom, cutControls_append h, colouredFrom, byteLength_append, Nat.add_assoc]

end

section

variable (c : Colour) {text : String} (h : '\x1b' ∉ text.toList) (offset : Nat) (cs : List Char)
include h

theorem shown_paint : shown ((c.paint text).toList ++ cs) = text.toList ++ shown cs := by
  rw [shown, cutControls_paint c h, shown]
  rfl

theorem colouredFrom_paint :
    colouredFrom offset ((c.paint text).toList ++ cs) =
      ⟨c.code.toList, ⟨offset, offset + byteLength text.toList⟩, text.toList⟩ ::
        colouredFrom (offset + byteLength text.toList) cs := by
  rw [colouredFrom, cutControls_paint c h, colouredFrom]
  simp only [piecesFrom, byteLength_nil, Nat.add_zero, if_neg c.code_parameters.2, if_true]

end

/-! ### The coloured line -/

/-- What is written for a token. -/
def written (colour : Option Colour) (t : Token) : String :=
  match colour with
  | some c => c.paint t.text
  | none => t.text

/-- The piece that a token is if it has a colour. -/
def pieceOf? (colour : Option Colour) (t : Token) : Option ColouredPiece :=
  colour.map fun c ↦ ⟨c.code.toList, t.span, t.text.toList⟩

section

variable (colour : Option Colour) {t : Token} (h : '\x1b' ∉ t.text.toList) (cs : List Char)
include h

theorem shown_written : shown ((written colour t).toList ++ cs) = t.text.toList ++ shown cs := by
  cases colour with
  | none => exact shown_append h cs
  | some c => exact shown_paint c h cs

theorem colouredFrom_written {offset : Nat}
    (hspan : t.span = ⟨offset, offset + byteLength t.text.toList⟩) :
    colouredFrom offset ((written colour t).toList ++ cs) =
      (pieceOf? colour t).toList ++ colouredFrom t.span.stop cs := by
  cases colour with
  | none =>
    rw [hspan]
    exact colouredFrom_append h offset cs
  | some c =>
    rw [pieceOf?, hspan]
    exact colouredFrom_paint c h offset cs

end

/-- The first token, with what stands in front of it, and the rest of the line. -/
theorem paintFrom_cons (colour? : Nat → Token → Option Colour) (index : Nat) {offset : Nat}
    {gap text rest : List Char} {t : Token} (ts : List Token)
    (hstart : t.span.start = offset + byteLength gap)
    (hstop : t.span.stop = offset + byteLength gap + byteLength text) :
    paintFrom colour? index offset (gap ++ (text ++ rest)) (t :: ts) =
      String.ofList gap ++ written (colour? index t) t ++
        paintFrom colour? (index + 1) t.span.stop rest ts := by
  have hgap : t.span.start - offset = byteLength gap := by omega
  have htext : t.span.stop - t.span.start = byteLength text := by omega
  rw [paintFrom, hgap, splitBytes_byteLength, htext]
  dsimp only
  rw [splitBytes_byteLength]
  rfl

/-- What is seen of a tiled line is the line, and the coloured pieces in it are the tokens that have
a colour, each at its place. -/
theorem shown_paintFrom (colour? : Nat → Token → Option Colour) (index : Nat) {offset : Nat}
    {line : List Char} {ts : List Token} (h : Lexer.Tiling offset line ts)
    (hline : '\x1b' ∉ line) :
    shown (paintFrom colour? index offset line ts).toList = line ∧
      colouredFrom offset (paintFrom colour? index offset line ts).toList =
        (ts.zipIdx index).filterMap fun p ↦ pieceOf? (colour? p.2 p.1) p.1 := by
  induction ts generalizing index offset line with
  | nil =>
    rw [paintFrom, String.toList_ofList, ← List.append_nil line, shown_append hline,
      colouredFrom_append hline]
    simp [shown, colouredFrom, cutControls, piecesFrom]
  | cons t ts ih =>
    cases h with
    | @token _ gap text rest _ _ hgap htext ht hstart hstop h =>
      simp only [List.mem_append, not_or] at hline
      obtain ⟨hgapline, htextline, hrestline⟩ := hline
      obtain ⟨hshown, hcoloured⟩ := ih (index + 1) h hrestline
      have htoken : '\x1b' ∉ t.text.toList := by rwa [ht, String.toList_ofList]
      have hspan : t.span =
          ⟨offset + byteLength gap, offset + byteLength gap + byteLength t.text.toList⟩ := by
        rw [ht, String.toList_ofList, ← hstop, ← hstart]
      rw [paintFrom_cons colour? index ts hstart hstop, String.toList_append, String.toList_append,
        String.toList_ofList, List.append_assoc, shown_append hgapline,
        colouredFrom_append hgapline, shown_written _ htoken,
        colouredFrom_written _ htoken _ hspan, hshown, hcoloured]
      refine ⟨by rw [ht, String.toList_ofList], ?_⟩
      rw [List.zipIdx_cons, List.filterMap_cons]
      cases pieceOf? (colour? index t) t <;> rfl

end Prompt

open Prompt

/-- **Highlighting only adds colour.** Take a line without escape characters. What is seen of the
highlighted line is the line itself. Every coloured piece in it is one token of the line, its text
and its place; and these pieces are all the tokens that have a colour, in order and each once. -/
theorem highlight_shown (st : Store) (scope : ScopeId) {line : String}
    (hline : '\x1b' ∉ line.toList) (offset : Nat) :
    let highlighted := (highlight st scope line offset).toList
    let tokens := tokenize line
    let colour? := colour? (st.transformerNames scope) (matching? tokens offset)
    shown highlighted = line.toList ∧
      (∀ piece ∈ colouredPieces highlighted,
        ∃ t ∈ tokens, piece.text = t.text.toList ∧ piece.span = t.span) ∧
      colouredPieces highlighted =
        tokens.zipIdx.filterMap fun p ↦ pieceOf? (colour? p.2 p.1) p.1 := by
  intro highlighted tokens colour?
  obtain ⟨hshown, hcoloured⟩ :=
    shown_paintFrom colour? 0 (Lexer.tiling_tokenize line) hline
  refine ⟨hshown, fun piece hpiece ↦ ?_, hcoloured⟩
  have hpiece : piece ∈ tokens.zipIdx.filterMap fun p ↦ pieceOf? (colour? p.2 p.1) p.1 :=
    hcoloured ▸ hpiece
  obtain ⟨⟨t, index⟩, ht, hpieceOf⟩ := List.mem_filterMap.mp hpiece
  obtain ⟨c, -, rfl⟩ := Option.map_eq_some_iff.mp hpieceOf
  exact ⟨t, List.fst_mem_of_mem_zipIdx ht, rfl, rfl⟩

/-- The brackets at the cursor, a character that begins no token, and a string that is left open. -/
theorem highlight_shown_brackets :
    let line := "(é) \"a"
    let highlighted := (highlight .empty 0 line 0).toList
    '\x1b' ∉ line.toList ∧ shown highlighted = line.toList ∧
      colouredPieces highlighted =
        [⟨"1;34".toList, ⟨0, 1⟩, ['(']⟩, ⟨"31".toList, ⟨1, 3⟩, ['é']⟩,
          ⟨"1;34".toList, ⟨3, 4⟩, [')']⟩, ⟨"32".toList, ⟨5, 7⟩, ['"', 'a']⟩] := by
  intro line highlighted
  have hline : '\x1b' ∉ line.toList := by decide
  obtain ⟨hshown, -, hcoloured⟩ := highlight_shown .empty 0 hline 0
  refine ⟨hline, hshown, hcoloured.trans ?_⟩
  decide +kernel

end MiniLisp
