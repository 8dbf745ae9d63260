/-
Sets of characters given as tables of code-point intervals.

Three questions about a character are settled by a published table rather than
by a formula: whether it is blank, whether it is a decimal digit, and whether
it is written as an escape inside quotation marks. The tables live in the
modules named for those questions; this file holds what they share, the
membership test. A table lists closed intervals, and a character belongs when
some interval holds its code point, so the order of the rows carries no meaning.
-/

set_option autoImplicit false

namespace CompilerSession.Text

/-- **A set of characters.** Closed intervals of code points. -/
abbrev Ranges := List (Nat × Nat)

/-- A character is in the table when one interval holds its code point. -/
def Ranges.holds (table : Ranges) (c : Char) : Bool :=
  table.any fun r => r.1 ≤ c.toNat && c.toNat ≤ r.2

/-- **Membership is interval membership.** -/
theorem Ranges.holds_iff (table : Ranges) (c : Char) :
    table.holds c = true ↔ ∃ r ∈ table, r.1 ≤ c.toNat ∧ c.toNat ≤ r.2 := by
  simp [Ranges.holds, List.any_eq_true]

end CompilerSession.Text
