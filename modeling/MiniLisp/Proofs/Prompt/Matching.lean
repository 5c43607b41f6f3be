import MiniLisp.Prompt.Brackets

/-!
# Matching brackets

The brackets that the prompt shows at the cursor are found in one pass, with a stack of the brackets
that are open. A closing bracket for which none is open is passed over, and a bracket that is never
closed stays on the stack to the end.

Which brackets belong together is said here without the stack: an opening bracket and a closing one
behind it, with balanced tokens between them (`BracketPair`). What surrounds them does not matter.
The two descriptions meet in the stack behind some of the tokens (`opened`). Its top is the bracket
behind which there are only balanced tokens, if there is one (`opened_eq_cons_iff`), so a closing
bracket ends a pair exactly with that one. Of the pairs at the cursor the search finds the one that
ends first (`matching?_eq_some_iff_first`).
-/

namespace MiniLisp

namespace Prompt

/-! ### Balanced tokens -/

/-- Tokens among which every bracket has its partner. -/
inductive Balanced : List Token → Prop
  | nil : Balanced []
  | other {t : Token} {ts : List Token} (hleft : t.kind ≠ .leftParen)
      (hright : t.kind ≠ .rightParen) (h : Balanced ts) : Balanced (t :: ts)
  | group {left right : Token} {inner ts : List Token} (hleft : left.kind = .leftParen)
      (hright : right.kind = .rightParen) (hinner : Balanced inner) (h : Balanced ts) :
      Balanced (left :: (inner ++ right :: ts))

theorem Balanced.append {ts us : List Token} (hts : Balanced ts) (hus : Balanced us) :
    Balanced (ts ++ us) := by
  induction hts with
  | nil => exact hus
  | other hleft hright _ ih => exact .other hleft hright ih
  | group hleft hright hinner _ _ ih =>
    rw [List.cons_append, List.append_assoc]
    exact .group hleft hright hinner ih

/-- A pair of brackets: an opening and a closing one at these places among the tokens, and between
them everything is balanced. -/
structure BracketPair (ts : List Token) (start stop : Nat) (left right : Token) : Prop where
  left_at : ts[start]? = some left
  right_at : ts[stop]? = some right
  opens : left.kind = .leftParen
  closes : right.kind = .rightParen
  lt : start < stop
  balanced : Balanced ((ts.take stop).drop (start + 1))

/-- A pair of brackets of which one begins or ends at the offset. -/
def PairAt (ts : List Token) (offset start stop : Nat) : Prop :=
  ∃ left right, BracketPair ts start stop left right ∧
    (left.span.start = offset ∨ left.span.stop = offset ∨
      right.span.start = offset ∨ right.span.stop = offset)

/-! ### The stack -/

/-- The brackets that are open behind a token, given those in front of it. -/
def openedBy (index : Nat) (opened : List (Nat × Token)) (t : Token) : List (Nat × Token) :=
  match t.kind with
  | .leftParen => (index, t) :: opened
  | .rightParen => opened.tail
  | _ => opened

/-- The brackets that are open behind tokens, the innermost first, given those in front of them. -/
def openedFrom (index : Nat) (opened : List (Nat × Token)) : List Token → List (Nat × Token)
  | [] => opened
  | t :: ts => openedFrom (index + 1) (openedBy index opened t) ts

/-- The brackets that are open behind the first tokens. -/
def opened (ts : List Token) : List (Nat × Token) := openedFrom 0 [] ts

section

variable {t : Token} (index : Nat) (stack : List (Nat × Token))

theorem openedBy_leftParen (h : t.kind = .leftParen) :
    openedBy index stack t = (index, t) :: stack := by
  simp only [openedBy, h]

theorem openedBy_rightParen (h : t.kind = .rightParen) : openedBy index stack t = stack.tail := by
  simp only [openedBy, h]

theorem openedBy_of_other (hleft : t.kind ≠ .leftParen) (hright : t.kind ≠ .rightParen) :
    openedBy index stack t = stack := by
  cases hkind : t.kind <;> simp_all [openedBy]

end

theorem openedFrom_append (index : Nat) (stack : List (Nat × Token)) (ts us : List Token) :
    openedFrom index stack (ts ++ us) =
      openedFrom (index + ts.length) (openedFrom index stack ts) us := by
  induction ts generalizing index stack with
  | nil => rfl
  | cons t ts ih =>
    rw [List.cons_append, openedFrom, ih, List.length_cons, Nat.add_assoc, Nat.add_comm 1]
    rfl

theorem opened_concat (ts : List Token) (t : Token) :
    opened (ts ++ [t]) = openedBy ts.length (opened ts) t := by
  rw [opened, openedFrom_append, Nat.zero_add]
  rfl

/-- Balanced tokens leave the stack as it was. -/
theorem Balanced.openedFrom_eq {ts : List Token} (h : Balanced ts) (index : Nat)
    (stack : List (Nat × Token)) : openedFrom index stack ts = stack := by
  induction h generalizing index stack with
  | nil => rfl
  | other hleft hright _ ih => rw [openedFrom, openedBy_of_other _ _ hleft hright, ih]
  | group hleft hright _ _ ihinner ih =>
    rw [openedFrom, openedBy_leftParen _ _ hleft, openedFrom_append, ihinner, openedFrom,
      openedBy_rightParen _ _ hright, List.tail_cons, ih]

/-- What is on top of the stack is a bracket that has only balanced tokens behind it, and below it
are the brackets that were open in front of it. -/
theorem exists_of_opened_eq_cons {ts : List Token} {start : Nat} {left : Token}
    {stack : List (Nat × Token)} (h : opened ts = (start, left) :: stack) :
    ∃ before inner, ts = before ++ left :: inner ∧ before.length = start ∧
      left.kind = .leftParen ∧ Balanced inner ∧ opened before = stack := by
  -- A closing bracket uncovers what was below the top, in a shorter list of tokens.
  induction hlen : ts.length using Nat.strongRecOn generalizing ts start left stack with
  | ind n ih =>
    subst hlen
    rcases List.eq_nil_or_concat ts with rfl | ⟨front, t, rfl⟩
    · cases h
    rw [List.concat_eq_append] at h ih ⊢
    rw [opened_concat] at h
    have hfront : front.length < (front ++ [t]).length := by simp
    by_cases hleft : t.kind = .leftParen
    · rw [openedBy_leftParen _ _ hleft] at h
      cases h
      exact ⟨front, [], rfl, rfl, hleft, .nil, rfl⟩
    by_cases hright : t.kind = .rightParen
    · rw [openedBy_rightParen _ _ hright] at h
      rcases htop : opened front with - | ⟨⟨place, top⟩, below⟩
      · rw [htop] at h
        cases h
      rw [htop, List.tail_cons] at h
      obtain ⟨before, inner, rfl, -, htopleft, hinner, hbelow⟩ := ih _ hfront htop rfl
      rw [h] at hbelow
      have hbefore : before.length < (before ++ top :: inner ++ [t]).length := by simp
      obtain ⟨outer, group, rfl, hplace, hopens, hgroup, hstack⟩ := ih _ hbefore hbelow rfl
      refine ⟨outer, group ++ top :: (inner ++ [t]), by simp, hplace, hopens, ?_, hstack⟩
      exact hgroup.append (.group htopleft hright hinner .nil)
    · rw [openedBy_of_other _ _ hleft hright] at h
      obtain ⟨before, inner, rfl, hplace, hopens, hinner, hstack⟩ := ih _ hfront h rfl
      exact ⟨before, inner ++ [t], by simp, hplace, hopens,
        hinner.append (.other hleft hright .nil), hstack⟩

/-- **The top of the stack** is the bracket that has only balanced tokens behind it. -/
theorem opened_eq_cons_iff {ts : List Token} {start : Nat} {left : Token} :
    (∃ stack, opened ts = (start, left) :: stack) ↔
      ∃ before inner, ts = before ++ left :: inner ∧ before.length = start ∧
        left.kind = .leftParen ∧ Balanced inner := by
  constructor
  · rintro ⟨stack, h⟩
    obtain ⟨before, inner, hcut, hplace, hopens, hinner, -⟩ := exists_of_opened_eq_cons h
    exact ⟨before, inner, hcut, hplace, hopens, hinner⟩
  · rintro ⟨before, inner, rfl, rfl, hopens, hinner⟩
    refine ⟨opened before, ?_⟩
    rw [opened, openedFrom_append, openedFrom, hinner.openedFrom_eq, openedBy_leftParen _ _ hopens,
      Nat.zero_add]
    rfl

/-! ### Pairs that end at a place -/

theorem BracketPair.stop_lt {ts : List Token} {start stop : Nat} {left right : Token}
    (h : BracketPair ts start stop left right) : stop < ts.length :=
  (List.getElem?_eq_some_iff.mp h.right_at).1

/-- An element of a list cuts the list in two. -/
theorem exists_cut_of_getElem? {ts : List Token} {place : Nat} {t : Token}
    (h : ts[place]? = some t) :
    ∃ before after, ts = before ++ t :: after ∧ before.length = place := by
  obtain ⟨hlt, rfl⟩ := List.getElem?_eq_some_iff.mp h
  refine ⟨ts.take place, ts.drop (place + 1), ?_, List.length_take_of_le (Nat.le_of_lt hlt)⟩
  rw [← List.drop_eq_getElem_cons hlt, List.take_append_drop]

/-- A token ends a pair if it is a closing bracket, and then with the top of the stack. -/
theorem bracketPair_iff_opened {front rest : List Token} {t left right : Token} {start : Nat} :
    BracketPair (front ++ t :: rest) start front.length left right ↔
      right = t ∧ t.kind = .rightParen ∧ ∃ stack, opened front = (start, left) :: stack := by
  rw [opened_eq_cons_iff]
  constructor
  · intro h
    have hright : t = right := by simpa using h.right_at
    have hleft : front[start]? = some left := by
      rw [← List.getElem?_append_left h.lt]
      exact h.left_at
    obtain ⟨before, inner, rfl, rfl⟩ := exists_cut_of_getElem? hleft
    have hbalanced := h.balanced
    rw [List.take_left, List.drop_length_add_append] at hbalanced
    exact ⟨hright.symm, hright ▸ h.closes, before, inner, rfl, rfl, h.opens, hbalanced⟩
  · rintro ⟨rfl, hcloses, before, inner, rfl, rfl, hopens, hinner⟩
    exact {
      left_at := by simp
      right_at := by simp
      opens := hopens
      closes := hcloses
      lt := by simp
      balanced := by rwa [List.take_left, List.drop_length_add_append] }

/-- A closing bracket ends one pair only. -/
theorem BracketPair.start_eq {ts : List Token} {start start' stop : Nat}
    {left left' right right' : Token} (h : BracketPair ts start stop left right)
    (h' : BracketPair ts start' stop left' right') : start = start' := by
  obtain ⟨front, rest, rfl, rfl⟩ := exists_cut_of_getElem? h.right_at
  obtain ⟨-, -, stack, hstack⟩ := bracketPair_iff_opened.mp h
  obtain ⟨-, -, stack', hstack'⟩ := bracketPair_iff_opened.mp h'
  rw [hstack] at hstack'
  cases hstack'
  rfl

/-! ### The search -/

/-- The answer of a search among pairs of places for one that ends as early as possible, of those
that end at a place or behind it. -/
def FirstFrom (P : Nat → Nat → Prop) (place : Nat) : Option (Nat × Nat) → Prop
  | none => ∀ start stop, place ≤ stop → ¬ P start stop
  | some (start, stop) =>
    P start stop ∧ place ≤ stop ∧ ∀ start' stop', place ≤ stop' → P start' stop' → stop ≤ stop'

/-- If none of the pairs ends at the place itself then the search may begin behind it. -/
theorem FirstFrom.of_succ {P : Nat → Nat → Prop} {place : Nat} {answer : Option (Nat × Nat)}
    (h : FirstFrom P (place + 1) answer) (hnone : ∀ start, ¬ P start place) :
    FirstFrom P place answer := by
  have hlater {start stop : Nat} (hle : place ≤ stop) (hpair : P start stop) :
      place + 1 ≤ stop := by
    refine Nat.lt_of_le_of_ne hle ?_
    rintro rfl
    exact hnone start hpair
  rcases answer with - | ⟨start, stop⟩
  · exact fun start stop hle hpair ↦ h start stop (hlater hle hpair) hpair
  · obtain ⟨hpair, hle, hfirst⟩ := h
    exact ⟨hpair, Nat.le_of_succ_le hle,
      fun start' stop' hle' hpair' ↦ hfirst start' stop' (hlater hle' hpair') hpair'⟩

theorem touches_iff {offset : Nat} {t : Token} :
    touches offset t = true ↔ t.span.start = offset ∨ t.span.stop = offset := by
  simp [touches]

/-- One token of the search: the search ends if the token ends a pair at the offset, and otherwise
goes on with the stack that the token leaves. -/
theorem matchingFrom?_cons (offset index : Nat) (stack : List (Nat × Token)) (t : Token)
    (rest : List Token) :
    (∃ start left below, t.kind = .rightParen ∧ stack = (start, left) :: below ∧
      (touches offset left || touches offset t) = true ∧
      matchingFrom? offset index stack (t :: rest) = some (start, index)) ∨
    (matchingFrom? offset index stack (t :: rest) =
        matchingFrom? offset (index + 1) (openedBy index stack t) rest ∧
      ∀ start left below, t.kind = .rightParen → stack = (start, left) :: below →
        (touches offset left || touches offset t) = false) := by
  by_cases hright : t.kind = .rightParen
  · rw [openedBy_rightParen _ _ hright]
    rcases stack with - | ⟨⟨start, left⟩, below⟩
    · exact .inr ⟨by simp only [matchingFrom?, hright, List.tail_nil], nofun⟩
    · cases htouch : touches offset left || touches offset t with
      | true =>
        exact .inl ⟨start, left, below, hright, rfl, htouch,
          by simp [matchingFrom?, hright, htouch]⟩
      | false =>
        refine .inr ⟨by simp [matchingFrom?, hright, htouch], ?_⟩
        rintro _ _ _ - ⟨⟩
        exact htouch
  · refine .inr ⟨?_, fun _ _ _ h ↦ absurd h hright⟩
    cases hkind : t.kind <;> simp_all [matchingFrom?, openedBy]

/-- **The search from a place on** finds the first pair at the offset that ends there or later. -/
theorem firstFrom_matchingFrom? (offset : Nat) (front rest : List Token) :
    FirstFrom (PairAt (front ++ rest) offset) front.length
      (matchingFrom? offset front.length (opened front) rest) := by
  induction rest generalizing front with
  | nil =>
    rintro start stop hle ⟨left, right, hpair, -⟩
    have hlt := hpair.stop_lt
    rw [List.append_nil] at hlt
    omega
  | cons t rest ih =>
    rcases matchingFrom?_cons offset front.length (opened front) t rest with
      ⟨start, left, below, hright, hstack, htouch, hfound⟩ | ⟨hnext, hnone⟩
    · rw [hfound]
      refine ⟨⟨left, t, bracketPair_iff_opened.mpr ⟨rfl, hright, below, hstack⟩, ?_⟩, Nat.le_refl _,
        fun _ _ hle _ ↦ hle⟩
      rw [Bool.or_eq_true, touches_iff, touches_iff, or_assoc] at htouch
      exact htouch
    · rw [hnext, ← opened_concat]
      have ih := ih (front ++ [t])
      rw [List.append_assoc, List.length_append] at ih
      refine FirstFrom.of_succ ih ?_
      rintro start ⟨left, right, hpair, htouch⟩
      obtain ⟨rfl, hright, below, hstack⟩ := bracketPair_iff_opened.mp hpair
      rw [← or_assoc, ← touches_iff, ← touches_iff, ← Bool.or_eq_true,
        hnone start left below hright hstack] at htouch
      cases htouch

end Prompt

open Prompt

/-- **The brackets that are shown are the pair at the cursor.** If a pair is found then it is an
opening and a closing bracket with balanced tokens between them, and one of the two begins or ends
at the offset; and of all such pairs, whatever brackets without a partner there are around them, it
is the one that ends first. None is found exactly if there is no such pair. -/
theorem matching?_eq_some_iff_first (tokens : List Token) (offset : Nat) :
    (∀ start stop, matching? tokens offset = some (start, stop) ↔
      PairAt tokens offset start stop ∧
        ∀ start' stop', PairAt tokens offset start' stop' → stop ≤ stop') ∧
    (matching? tokens offset = none ↔ ∀ start stop, ¬ PairAt tokens offset start stop) := by
  have hfirst : FirstFrom (PairAt tokens offset) 0 (matching? tokens offset) :=
    firstFrom_matchingFrom? offset [] tokens
  rcases hanswer : matching? tokens offset with - | ⟨found, last⟩
  · rw [hanswer] at hfirst
    have hnone (start stop : Nat) : ¬ PairAt tokens offset start stop :=
      hfirst start stop (Nat.zero_le _)
    exact ⟨fun start stop ↦ ⟨nofun, fun h ↦ absurd h.1 (hnone start stop)⟩,
      iff_of_true rfl hnone⟩
  · rw [hanswer] at hfirst
    obtain ⟨hpair, -, hleast⟩ := hfirst
    refine ⟨fun start stop ↦ ⟨?_, ?_⟩, iff_of_false nofun fun hnone ↦ hnone _ _ hpair⟩
    · rintro ⟨⟩
      exact ⟨hpair, fun start' stop' h ↦ hleast start' stop' (Nat.zero_le _) h⟩
    · rintro ⟨hother, hle⟩
      -- Two pairs that end first end at the same place, and so are the same.
      obtain rfl : stop = last :=
        Nat.le_antisymm (hle _ _ hpair) (hleast _ _ (Nat.zero_le _) hother)
      obtain ⟨left, right, hpair, -⟩ := hpair
      obtain ⟨left', right', hother, -⟩ := hother
      rw [hpair.start_eq hother]

/-- At the place where one list ends and the next begins, the one that ends there is shown, and the
brackets without a partner in front of them are passed over. -/
example : matching? (tokenize ")((a)(b)") 5 = some (2, 4) := by decide +kernel

end MiniLisp
