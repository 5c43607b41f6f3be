import Mathlib.Algebra.Group.Nat.Defs

/-!
# The order of bytes

Texts are compared character by character. In UTF-8 that is the order of their bytes
(`utf8Bytes_lt_of_lt`): the bytes of two characters differ before either of them ends, and where
they differ first the smaller character has the smaller byte (`Below`). So what follows the
characters never counts.

The bytes of a character are the digits of its code to the base 64, the highest one first, and what
is added to the first one grows with the number of bytes (`continued`). Characters of equally many
bytes are therefore ordered as their digits are, and others by their first bytes.
-/

namespace MiniLisp.Text

/-- The bytes of the UTF-8 form of a text. -/
def utf8Bytes (s : String) : List UInt8 := s.toUTF8.data.toList

theorem utf8Bytes_eq (s : String) : utf8Bytes s = s.toList.flatMap String.utf8EncodeChar := by
  rw [utf8Bytes, String.toUTF8_eq_toByteArray, ← String.utf8Encode_toList]
  exact List.toList_data_toByteArray

/-! ### Where bytes differ first -/

/-- Both go on to a place where they differ first, and there the first one is smaller. -/
inductive Below : List UInt8 → List UInt8 → Prop
  | here {x y : UInt8} {xs ys : List UInt8} (h : x < y) : Below (x :: xs) (y :: ys)
  | there {x : UInt8} {xs ys : List UInt8} (h : Below xs ys) : Below (x :: xs) (x :: ys)

/-- What follows does not matter. -/
theorem Below.append {xs ys : List UInt8} (h : Below xs ys) (front back : List UInt8) :
    Below (xs ++ front) (ys ++ back) := by
  induction h with
  | here h => exact .here h
  | there _ ih => exact .there ih

/-- Neither does what both begin with. -/
theorem Below.append_left {xs ys : List UInt8} (h : Below xs ys) (both : List UInt8) :
    Below (both ++ xs) (both ++ ys) := by
  induction both with
  | nil => exact h
  | cons x both ih => exact .there ih

theorem Below.lt {xs ys : List UInt8} (h : Below xs ys) : xs < ys := by
  induction h with
  | here h => exact List.cons_lt_cons_iff.mpr (.inl h)
  | there _ ih => exact List.cons_lt_cons_iff.mpr (.inr ⟨rfl, ih⟩)

/-! ### Bytes of a character -/

/-- The digits of a code to the base 64, the highest one first. Something is added to each, to the
first one by the form that the bytes have. -/
def continued (lead : Nat) : Nat → Nat → List UInt8
  | 0, code => [UInt8.ofNat (code + lead)]
  | n + 1, code => continued lead n (code / 64) ++ [UInt8.ofNat (code % 64 + 128)]

theorem ofNat_lt_ofNat {m n : Nat} (h : m < n) (hn : n < 256) : UInt8.ofNat m < UInt8.ofNat n := by
  rw [UInt8.lt_iff_toNat_lt, UInt8.toNat_ofNat', UInt8.toNat_ofNat']
  omega

/-- Codes are in the order of their digits. -/
theorem below_continued {lead n v w : Nat} (h : v < w) (hlead : w / 64 ^ n + lead < 256) :
    Below (continued lead n v) (continued lead n w) := by
  induction n generalizing v w with
  | zero =>
    rw [Nat.pow_zero, Nat.div_one] at hlead
    exact .here (ofNat_lt_ofNat (by omega) hlead)
  | succ n ih =>
    rw [Nat.pow_succ', ← Nat.div_div_eq_div_mul] at hlead
    rcases Nat.lt_or_ge (v / 64) (w / 64) with hdigits | hdigits
    · exact (ih hdigits hlead).append _ _
    · -- All digits but the last ones are the same.
      have hsame : v / 64 = w / 64 := by omega
      rw [continued, continued, hsame]
      exact Below.append_left (.here (ofNat_lt_ofNat (by omega) (by omega))) _

/-- The first byte holds what is left of the code in front of the other digits. -/
theorem exists_continued_eq_cons (lead n code : Nat) :
    ∃ rest, continued lead n code = UInt8.ofNat (code / 64 ^ n + lead) :: rest := by
  induction n generalizing code with
  | zero => exact ⟨[], by rw [Nat.pow_zero, Nat.div_one]; rfl⟩
  | succ n ih =>
    obtain ⟨rest, hrest⟩ := ih (code / 64)
    refine ⟨rest ++ [UInt8.ofNat (code % 64 + 128)], ?_⟩
    rw [continued, hrest, List.cons_append, Nat.pow_succ', Nat.div_div_eq_div_mul]

/-- How many bytes follow the first one. -/
def furtherBytes (code : Nat) : Nat :=
  if code < 0x80 then 0 else if code < 0x800 then 1 else if code < 0x10000 then 2 else 3

/-- What is added to the first byte. -/
def leadOf : Nat → Nat
  | 0 => 0
  | 1 => 0xc0
  | 2 => 0xe0
  | _ => 0xf0

theorem toNat_lt (c : Char) : c.toNat < 0x110000 := by
  have hvalid := c.valid
  simp only [UInt32.isValidChar, Nat.isValidChar, Char.toNat_val] at hvalid
  omega

theorem utf8EncodeChar_eq_continued (c : Char) : String.utf8EncodeChar c =
    continued (leadOf (furtherBytes c.toNat)) (furtherBytes c.toNat) c.toNat := by
  have hlast := toNat_lt c
  rw [String.utf8EncodeChar, furtherBytes, Char.toNat_val]
  generalize c.toNat = code at hlast
  have hdigits : code / 64 / 64 = code / 4096 ∧ code / 4096 / 64 = code / 262144 :=
    ⟨Nat.div_div_eq_div_mul .., Nat.div_div_eq_div_mul ..⟩
  split
  · next h =>
    rw [if_pos (by omega)]
    rfl
  split
  · next h =>
    rw [if_neg (by omega), if_pos (by omega), Nat.mod_eq_of_lt (by omega)]
    rfl
  split
  · next h =>
    rw [if_neg (by omega), if_neg (by omega), if_pos (by omega), Nat.mod_eq_of_lt (by omega),
      ← hdigits.1]
    rfl
  · rw [if_neg (by omega), if_neg (by omega), if_neg (by omega), Nat.mod_eq_of_lt (by omega),
      ← hdigits.2, ← hdigits.1]
    rfl

/-- A code with more bytes has a greater first byte, and none goes beyond what a byte can hold. -/
theorem lead_bounds {v w : Nat} (h : v < w) (hw : w < 0x110000) :
    w / 64 ^ furtherBytes w + leadOf (furtherBytes w) < 256 ∧
      (furtherBytes v ≠ furtherBytes w →
        v / 64 ^ furtherBytes v + leadOf (furtherBytes v) <
          w / 64 ^ furtherBytes w + leadOf (furtherBytes w)) := by
  unfold furtherBytes
  repeat' split
  all_goals
    simp only [leadOf]
    omega

/-- **The bytes of a smaller character are below.** -/
theorem below_utf8EncodeChar {c d : Char} (h : c < d) :
    Below (String.utf8EncodeChar c) (String.utf8EncodeChar d) := by
  obtain ⟨hbyte, hlead⟩ := lead_bounds (v := c.toNat) h (toNat_lt d)
  rw [utf8EncodeChar_eq_continued, utf8EncodeChar_eq_continued]
  by_cases hbytes : furtherBytes c.toNat = furtherBytes d.toNat
  · rw [hbytes]
    exact below_continued h hbyte
  · obtain ⟨rest, hc⟩ := exists_continued_eq_cons (leadOf (furtherBytes c.toNat))
      (furtherBytes c.toNat) c.toNat
    obtain ⟨rest', hd⟩ := exists_continued_eq_cons (leadOf (furtherBytes d.toNat))
      (furtherBytes d.toNat) d.toNat
    rw [hc, hd]
    exact .here (ofNat_lt_ofNat (hlead hbytes) hbyte)

/-- **Texts are in the order of their bytes.** -/
theorem utf8Bytes_lt_of_lt {r s : String} (h : r < s) : utf8Bytes r < utf8Bytes s := by
  rw [String.lt_iff] at h
  rw [utf8Bytes_eq, utf8Bytes_eq]
  generalize r.toList = cs at h
  generalize s.toList = ds at h
  induction cs generalizing ds with
  | nil =>
    cases ds with
    | nil => cases h
    | cons d ds =>
      obtain ⟨x, xs, hx⟩ := List.exists_cons_of_ne_nil (@String.utf8EncodeChar_ne_nil d)
      rw [List.flatMap_cons, hx]
      exact List.nil_lt_cons _ _
  | cons c cs ih =>
    cases ds with
    | nil => cases h
    | cons d ds =>
      rw [List.flatMap_cons, List.flatMap_cons]
      rcases List.cons_lt_cons_iff.mp h with hlt | ⟨rfl, hrest⟩
      · exact ((below_utf8EncodeChar hlt).append _ _).lt
      · exact List.append_left_lt (ih ds hrest)

end MiniLisp.Text
