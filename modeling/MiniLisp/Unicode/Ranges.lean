/-!
# Sets of characters as ranges

A property of characters is kept as a list of closed ranges of code points, as the standard's own
tables list them. A list is searched from its front: the tables are short, or are looked at seldom.
-/

namespace MiniLisp.Unicode

/-- Closed ranges of code points, each given by its first and its last one. -/
abbrev Ranges := List (Nat × Nat)

/-- The code point lies in one of the ranges. -/
def Ranges.contains (rs : Ranges) (code : Nat) : Bool :=
  rs.any fun r ↦ r.1 ≤ code && code ≤ r.2

/-- Membership, said with the ends of a range. -/
theorem Ranges.contains_iff {rs : Ranges} {code : Nat} :
    rs.contains code = true ↔ ∃ r ∈ rs, r.1 ≤ code ∧ code ≤ r.2 := by
  simp [Ranges.contains]

end MiniLisp.Unicode
