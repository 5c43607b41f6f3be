import MiniLisp.Proofs.Reading.ErrorPlace
import MiniLisp.Proofs.Reading.Lines

/-!
# Texts that end too early

A text ends too early if all of its tokens are accepted and something is still open: lists want
their brackets, and marks their forms. Brackets alone can give them all that, an empty list being a
form (`exists_finish`).

There is one exception. Behind the tail of a dotted list only its bracket may follow, but a mark or
an opening bracket is accepted there as well. The form that begins with it has no place in the list,
and the reader only finds that out when the form is complete. Until then the text is said to end too
early, though it is lost already (`Stuck`). So a text that ends too early can be completed exactly
if nothing but a closing bracket follows the tail of any list in it (`unexpectedEnd_completed_iff`).
-/

namespace MiniLisp

open MiniLisp.Derivation (tokensOf valuesOf)

namespace Reader

/-! ### Lists with a tail -/

/-- The construct is a list whose tail was read. -/
def Frame.IsFilled : Frame → Prop
  | .list _ _ (.filled _) => True
  | _ => False

/-- Something was opened behind the tail of a list. -/
def Stuck (stack : List Frame) : Prop := ∃ f ∈ stack.tail, f.IsFilled

/-- A form that is pushed among open constructs none of which has a tail yet becomes the element or
the tail of a list, or a form of the program. -/
theorem exists_push {stack : List Frame} (h : ∀ f ∈ stack, ¬ f.IsFilled) (forms : List Node)
    (n : Node) :
    ∃ st, push forms n stack = .ok st ∧ ¬ Stuck st.stack ∧ st.stack.length ≤ stack.length := by
  induction stack generalizing n with
  | nil => exact ⟨_, rfl, fun ⟨_, hf, _⟩ ↦ List.not_mem_nil hf, Nat.le_refl _⟩
  | cons f rest ih =>
    obtain ⟨hf, hrest⟩ := List.forall_mem_cons.mp h
    have hnot (g : Frame) : ¬ Stuck (g :: rest) := fun ⟨f, hf, hfilled⟩ ↦ hrest f hf hfilled
    cases f with
    | mark m span =>
      obtain ⟨st, hst, hopen, hle⟩ := ih hrest (.tagged m.name span n)
      exact ⟨st, hst, hopen, Nat.le_succ_of_le hle⟩
    | list start items dot =>
      cases dot with
      | absent => exact ⟨_, rfl, hnot _, Nat.le_refl _⟩
      | waiting span => exact ⟨_, rfl, hnot _, Nat.le_refl _⟩
      | filled tail => exact absurd trivial hf

/-- A form that is pushed stays above a list that has its tail. -/
theorem stuck_of_push {stack : List Frame} (h : ∃ f ∈ stack, f.IsFilled) {forms : List Node}
    {n : Node} {st : State} (hst : push forms n stack = .ok st) : Stuck st.stack := by
  obtain ⟨f, hf, hfilled⟩ := h
  induction stack generalizing n with
  | nil => exact absurd hf List.not_mem_nil
  | cons g rest ih =>
    cases g with
    | mark m span =>
      rcases List.mem_cons.mp hf with rfl | hf
      · exact absurd hfilled id
      · exact ih hst hf
    | list start items dot =>
      have hrest (hnot : ¬ (Frame.list start items dot).IsFilled) : f ∈ rest := by
        refine (List.mem_cons.mp hf).resolve_left ?_
        rintro rfl
        exact hnot hfilled
      cases dot with
      | absent => cases hst; exact ⟨f, hrest id, hfilled⟩
      | waiting => cases hst; exact ⟨f, hrest id, hfilled⟩
      | filled => cases hst

/-! ### A way out -/

/-- A closing bracket and what follows it. -/
theorem steps_rightParen (st : State) (offset : Nat) (text : List Char) :
    steps st (Lexer.tokensFrom offset (')' :: text)) =
      close st ⟨.rightParen, ")", ⟨offset, offset + 1⟩⟩ >>= fun next ↦
        steps next (Lexer.tokensFrom (offset + 1) text) := by
  have htokens : Lexer.tokensFrom offset (')' :: text) =
      ⟨.rightParen, ")", ⟨offset, offset + 1⟩⟩ :: Lexer.tokensFrom (offset + 1) text :=
    Lexer.tokensFrom_of_takes (Lexer.takes_rightParen text) offset
  rw [htokens, steps, step_of_rightParen rfl]
  cases close st ⟨.rightParen, ")", ⟨offset, offset + 1⟩⟩ <;> rfl

/-- An empty list and what follows it. -/
theorem steps_brackets (st : State) (offset : Nat) (text : List Char) :
    steps st (Lexer.tokensFrom offset ('(' :: ')' :: text)) =
      push st.forms (.ofList [] ⟨offset, offset + 1 + 1⟩) st.stack >>= fun next ↦
        steps next (Lexer.tokensFrom (offset + 1 + 1) text) := by
  have htokens : Lexer.tokensFrom offset ('(' :: ')' :: text) =
      ⟨.leftParen, "(", ⟨offset, offset + 1⟩⟩ :: Lexer.tokensFrom (offset + 1) (')' :: text) :=
    Lexer.tokensFrom_of_takes (Lexer.takes_leftParen (')' :: text)) offset
  rw [htokens, steps, step_of_leftParen rfl]
  exact steps_rightParen _ _ text

/-- **Brackets finish what is open**, as long as nothing was opened behind the tail of a list. -/
theorem exists_finish (stack : List Frame) (h : ¬ Stuck stack) (forms : List Node) (offset : Nat) :
    ∃ text done, steps ⟨stack, forms⟩ (Lexer.tokensFrom offset text) = .ok ⟨[], done⟩ := by
  induction hlength : stack.length using Nat.strong_induction_on
    generalizing stack forms offset with
  | h length ih =>
    subst hlength
    rcases stack with - | ⟨f, rest⟩
    · exact ⟨[], forms, by rw [Lexer.tokensFrom_nil]; rfl⟩
    -- A form for what is around the first construct takes that off the stack.
    have hrest : ∀ g ∈ rest, ¬ g.IsFilled := fun g hg hfilled ↦ h ⟨g, hg, hfilled⟩
    have later (n : Node) (offset : Nat) : ∃ text done,
        (push forms n rest >>= fun next ↦ steps next (Lexer.tokensFrom offset text)) =
          .ok ⟨[], done⟩ := by
      obtain ⟨⟨stack', forms'⟩, hst, hopen, hle⟩ := exists_push hrest forms n
      obtain ⟨text, done, hdone⟩ := ih _ (Nat.lt_succ_of_le hle) _ hopen forms' offset rfl
      exact ⟨text, done, by rw [hst]; exact hdone⟩
    cases f with
    | mark m span =>
      obtain ⟨text, done, hdone⟩ :=
        later (.tagged m.name span (.ofList [] ⟨offset, offset + 1 + 1⟩)) (offset + 1 + 1)
      exact ⟨'(' :: ')' :: text, done, (steps_brackets _ _ text).trans hdone⟩
    | list start items dot =>
      cases dot with
      | absent =>
        obtain ⟨text, done, hdone⟩ := later (.ofList items.reverse ⟨start, offset + 1⟩) (offset + 1)
        refine ⟨')' :: text, done, (steps_rightParen _ _ text).trans ?_⟩
        rw [close_absent]
        exact hdone
      | filled tail =>
        obtain ⟨text, done, hdone⟩ :=
          later (.listWithTail items.reverse tail ⟨start, offset + 1⟩) (offset + 1)
        exact ⟨')' :: text, done, (steps_rightParen _ _ text).trans hdone⟩
      | waiting span =>
        -- The empty list becomes the tail, and then the bracket may follow.
        obtain ⟨text, done, hdone⟩ := later (.listWithTail items.reverse
          (.ofList [] ⟨offset, offset + 1 + 1⟩) ⟨start, offset + 1 + 1 + 1⟩) (offset + 1 + 1 + 1)
        refine ⟨'(' :: ')' :: ')' :: text, done, (steps_brackets _ _ _).trans ?_⟩
        exact (steps_rightParen _ _ text).trans hdone

/-! ### No way out -/

/-- What is accepted under a list that has its tail, other than its bracket, opens something. -/
theorem stuck_of_step {st st' : State} {t : Token} (h : ∃ f ∈ st.stack, f.IsFilled)
    (ht : t.kind ≠ .rightParen) (hst : step st t = .ok st') : Stuck st'.stack := by
  obtain ⟨stack, forms⟩ := st
  unfold step at hst
  split at hst
  · cases hst; exact h
  · next hkind => exact absurd hkind ht
  · unfold dot at hst
    split at hst
    · next start n items rest hstack =>
      obtain rfl : stack = _ := hstack
      cases hst
      obtain ⟨f, hf, hfilled⟩ := h
      rcases List.mem_cons.mp hf with rfl | hf
      · exact absurd hfilled id
      · exact ⟨f, hf, hfilled⟩
    · cases hst
  · cases hst; exact h
  · cases hst; exact h
  · cases hst; exact h
  · cases hst; exact h
  · cases hn : atom t with
    | error e => rw [hn] at hst; cases hst
    | ok n =>
      rw [hn] at hst
      exact stuck_of_push h hst

/-- No token takes away what was opened behind the tail of a list. -/
theorem Stuck.step {st st' : State} (h : Stuck st.stack) {t : Token} (hst : step st t = .ok st') :
    Stuck st'.stack := by
  obtain ⟨stack, forms⟩ := st
  obtain ⟨f, hf, hfilled⟩ := h
  by_cases ht : t.kind = .rightParen
  · rw [step_of_rightParen ht] at hst
    match stack, hf, hst with
    | .mark _ _ :: _, _, hst => cases hst
    | .list _ _ (.waiting _) :: _, _, hst => cases hst
    | .list _ _ .absent :: _, hf, hst =>
      rw [close_absent] at hst
      exact stuck_of_push ⟨f, hf, hfilled⟩ hst
    | .list _ _ (.filled _) :: _, hf, hst => exact stuck_of_push ⟨f, hf, hfilled⟩ hst
  · exact stuck_of_step ⟨f, List.mem_of_mem_tail hf, hfilled⟩ ht hst

theorem Stuck.steps {st st' : State} (h : Stuck st.stack) {ts : List Token}
    (hst : steps st ts = .ok st') : Stuck st'.stack := by
  induction ts generalizing st with
  | nil => cases hst; exact h
  | cons t ts ih =>
    obtain ⟨next, hnext, hrest⟩ := exists_of_steps_cons hst
    exact ih (h.step hnext) hrest

/-! ### The tokens behind it -/

/-- Something other than a closing bracket follows the tail of a dotted list. -/
inductive Overfull : List Token → Prop
  | intro (before : List Token) {opening : Token} (first : Derivation) (items : List Derivation)
      {dot : Token} (tail : Derivation) {next : Token} (after : List Token)
      (opens : opening.kind = .leftParen) (dots : dot.kind = .dot)
      (goes_on : next.kind ≠ .rightParen) :
      Overfull (before ++
        opening :: (tokensOf (first :: items) ++ dot :: (tail.tokens ++ next :: after)))

theorem exists_of_steps_append {st st' : State} {ts us : List Token}
    (h : steps st (ts ++ us) = .ok st') :
    ∃ next, steps st ts = .ok next ∧ steps next us = .ok st' := by
  rw [steps_append] at h
  cases e : steps st ts with
  | error cause => rw [e] at h; cases h
  | ok next => rw [e] at h; exact ⟨next, rfl, h⟩

/-- Tokens that are accepted though a list in them goes on behind its tail leave no way out. -/
theorem Overfull.stuck {ts : List Token} (h : Overfull ts) {st st' : State}
    (hst : steps st ts = .ok st') : Stuck st'.stack := by
  cases h with
  | intro before first items tail after opens dots goes_on =>
    obtain ⟨outer, -, hst⟩ := exists_of_steps_append hst
    rw [steps, step_of_leftParen opens] at hst
    have hst : steps ⟨.list _ [] .absent :: outer.stack, outer.forms⟩ _ = .ok st' := hst
    have hnonempty : (valuesOf (first :: items)).reverse ++ [] ≠ [] := by simp [valuesOf]
    rw [steps_append, steps_items fun d _ ↦ steps_tokens d] at hst
    have hst : steps ⟨.list _ _ .absent :: outer.stack, outer.forms⟩ _ = .ok st' := hst
    rw [steps, step_dot_of_ne_nil dots hnonempty] at hst
    have hst : steps ⟨.list _ _ (.waiting _) :: outer.stack, outer.forms⟩ _ = .ok st' := hst
    rw [steps_append, steps_tokens tail] at hst
    have hst : steps ⟨.list _ _ (.filled tail.value) :: outer.stack, outer.forms⟩ _ = .ok st' := hst
    obtain ⟨beyond, hnext, hafter⟩ := exists_of_steps_cons hst
    have hstuck : Stuck beyond.stack :=
      stuck_of_step ⟨.list _ _ (.filled tail.value), List.mem_cons_self, trivial⟩ goes_on hnext
    exact hstuck.steps hafter

theorem tokenKind_ne_rightParen (mark : QuoteMark) : mark.tokenKind ≠ .rightParen := by
  cases mark <;> decide

/-- Where a list has its tail and is not closed, anything but a closing bracket is too much. -/
theorem Held.overfull_append {forms : List Node} {stack : List Frame} {before : List Token}
    (h : Held forms stack before) (hfilled : ∃ f ∈ stack, f.IsFilled) {next : Token}
    (hnext : next.kind ≠ .rightParen) (after : List Token) :
    Overfull (before ++ next :: after) := by
  obtain ⟨f, hf, hfilled⟩ := hfilled
  induction h generalizing next after with
  | top => exact absurd hf List.not_mem_nil
  | @mark stack before outer mark token marks ih =>
    have hf : f ∈ stack := (List.mem_cons.mp hf).resolve_left (by rintro rfl; exact hfilled)
    rw [List.append_assoc, List.singleton_append]
    exact ih (ne_of_eq_of_ne marks (tokenKind_ne_rightParen mark)) _ hf
  | @absent stack before outer opening opens ds items values ih =>
    have hf : f ∈ stack := (List.mem_cons.mp hf).resolve_left (by rintro rfl; exact hfilled)
    rw [List.append_assoc, List.cons_append]
    exact ih (ne_of_eq_of_ne opens (by decide)) _ hf
  | @waiting stack before outer opening opens first ds items values dot dots ih =>
    have hf : f ∈ stack := (List.mem_cons.mp hf).resolve_left (by rintro rfl; exact hfilled)
    rw [List.append_assoc, List.cons_append]
    exact ih (ne_of_eq_of_ne opens (by decide)) _ hf
  | @filled stack before outer opening opens first ds items values dot dots tail value fills ih =>
    rw [List.append_assoc, List.cons_append]
    rcases List.mem_cons.mp hf with rfl | hf
    · rw [List.append_assoc, List.cons_append]
      exact .intro before first ds tail after opens dots hnext
    · exact ih (ne_of_eq_of_ne opens (by decide)) _ hf

/-- Where something was opened behind the tail of a list, its token stands there. -/
theorem Held.overfull {forms : List Node} {stack : List Frame} {ts : List Token}
    (h : Held forms stack ts) (hstuck : Stuck stack) : Overfull ts := by
  cases h with
  | top => exact absurd hstuck fun ⟨_, hf, _⟩ ↦ List.not_mem_nil hf
  | mark outer marks =>
    exact outer.overfull_append hstuck (ne_of_eq_of_ne marks (tokenKind_ne_rightParen _)) []
  | absent outer opens => exact outer.overfull_append hstuck (ne_of_eq_of_ne opens (by decide)) _
  | waiting outer opens => exact outer.overfull_append hstuck (ne_of_eq_of_ne opens (by decide)) _
  | filled outer opens => exact outer.overfull_append hstuck (ne_of_eq_of_ne opens (by decide)) _

end Reader

open Reader (Overfull)

/-! ### Texts -/

theorem readTokens_eq_bind (ts : List Token) :
    readTokens ts = Reader.steps .initial ts >>= Reader.finish := by
  unfold readTokens
  cases Reader.steps .initial ts <;> rfl

/-- With another text on the next line, reading goes on from where the first one ended. -/
theorem read_line_of_steps {s : String} {st : Reader.State}
    (h : Reader.steps .initial (tokenize s) = .ok st) (t : String) :
    read (s ++ "\n" ++ t) =
      Reader.steps st (Lexer.tokensFrom (byteLength s.toList + 1) t.toList) >>= Reader.finish := by
  have hclosed : ∀ u ∈ tokenize s, u.isClosed = true := Reader.isClosed_of_steps h
  rw [read, readTokens_eq_bind, tokenize_append_line_of_isClosed hclosed, Reader.steps_append, h]
  rfl

/-- A text in which a list goes on behind its tail is never read, whatever follows. -/
theorem read_ne_ok_of_overfull {s : String} (h : Overfull (tokenize s)) {st : Reader.State}
    (hst : Reader.steps .initial (tokenize s) = .ok st) (t : String) (forms : List Node) :
    read (s ++ "\n" ++ t) ≠ .ok forms := by
  intro hread
  rw [read_line_of_steps hst] at hread
  cases e : Reader.steps st (Lexer.tokensFrom (byteLength s.toList + 1) t.toList) with
  | error cause => rw [e] at hread; cases hread
  | ok last =>
    rw [e] at hread
    obtain ⟨f, hf, -⟩ := (h.stuck hst).steps e
    have hread : Reader.finish last = .ok forms := hread
    unfold Reader.finish at hread
    split at hread
    · next hstack => rw [hstack] at hf; cases hf
    · cases hread
    · cases hread

/-- **An early end can be made good.** A text that ends too early can be completed on the next line
exactly if in none of its dotted lists anything but a closing bracket follows the tail. -/
theorem unexpectedEnd_completed_iff {s : String} {missing : Missing}
    (h : read s = .error (.unexpectedEnd missing)) :
    (∃ t forms, read (s ++ "\n" ++ t) = .ok forms) ↔ ¬ Overfull (tokenize s) := by
  obtain ⟨st, hst⟩ := exists_steps_of_unexpectedEnd h
  constructor
  · rintro ⟨t, forms, hread⟩ hoverfull
    exact read_ne_ok_of_overfull hoverfull hst t forms hread
  · intro hnot
    have hinitial : Reader.Held [] [] [] := .top (show valuesOf [] = [].reverse from rfl)
    have hheld : Reader.Held st.forms st.stack ([] ++ tokenize s) := hinitial.steps hst
    have hopen : ¬ Reader.Stuck st.stack := fun hstuck ↦ hnot (hheld.overfull hstuck)
    obtain ⟨text, done, hdone⟩ :=
      Reader.exists_finish st.stack hopen st.forms (byteLength s.toList + 1)
    refine ⟨String.ofList text, done.reverse, ?_⟩
    rw [read_line_of_steps hst, String.toList_ofList, hdone]
    rfl

/-- The tail of a dotted list that is itself waiting for a form. -/
theorem unexpectedEnd_completed_tail :
    let s := "(a . '"
    read s = .error (.unexpectedEnd (.operand .quote)) ∧
      (∃ t forms, read (s ++ "\n" ++ t) = .ok forms) ∧ ¬ Overfull (tokenize s) := by
  intro s
  have htokens : tokenize s =
      [⟨.leftParen, "(", ⟨0, 1⟩⟩, ⟨.symbol, "a", ⟨1, 2⟩⟩, ⟨.dot, ".", ⟨3, 4⟩⟩,
        ⟨.quote, "'", ⟨5, 6⟩⟩] := by decide +kernel
  have hend : read s = .error (.unexpectedEnd (.operand .quote)) := by
    rw [read, htokens]
    rfl
  have hrest : tokenize (s ++ "\n" ++ "b)") =
      [⟨.leftParen, "(", ⟨0, 1⟩⟩, ⟨.symbol, "a", ⟨1, 2⟩⟩, ⟨.dot, ".", ⟨3, 4⟩⟩,
        ⟨.quote, "'", ⟨5, 6⟩⟩, ⟨.symbol, "b", ⟨7, 8⟩⟩, ⟨.rightParen, ")", ⟨8, 9⟩⟩] := by
    decide +kernel
  have hread : ∃ t forms, read (s ++ "\n" ++ t) = .ok forms :=
    ⟨"b)", _, (congrArg readTokens hrest).trans rfl⟩
  exact ⟨hend, hread, (unexpectedEnd_completed_iff hend).mp hread⟩

/-- Behind the tail `b` a quote is accepted, and then no form is right. -/
theorem unexpectedEnd_stuck :
    let s := "(a . b '"
    read s = .error (.unexpectedEnd (.operand .quote)) ∧
      ¬ ∃ t forms, read (s ++ "\n" ++ t) = .ok forms := by
  intro s
  have htokens : tokenize s =
      [⟨.leftParen, "(", ⟨0, 1⟩⟩, ⟨.symbol, "a", ⟨1, 2⟩⟩, ⟨.dot, ".", ⟨3, 4⟩⟩,
        ⟨.symbol, "b", ⟨5, 6⟩⟩, ⟨.quote, "'", ⟨7, 8⟩⟩] := by decide +kernel
  have hend : read s = .error (.unexpectedEnd (.operand .quote)) := by
    rw [read, htokens]
    rfl
  refine ⟨hend, ?_⟩
  obtain ⟨st, hst⟩ := exists_steps_of_unexpectedEnd hend
  have hoverfull : Overfull (tokenize s) := by
    rw [htokens]
    exact .intro [] (.atom ⟨.symbol, "a", ⟨1, 2⟩⟩ _ rfl) [] (.atom ⟨.symbol, "b", ⟨5, 6⟩⟩ _ rfl) []
      rfl rfl (by decide)
  rintro ⟨t, forms, hread⟩
  exact read_ne_ok_of_overfull hoverfull hst t forms hread

end MiniLisp
