/-! Properties of characters as ranges of code points. The tables of this library hold the Unicode
properties of version 17, those for breaking lines of version 15. -/
namespace StackLang.Text

/-- Whether a number lies in one of some closed ranges. The ranges ascend, so the search ends at
the first one that starts above the number. -/
def inRanges (n : Nat) : List (Nat × Nat) → Bool
  | [] => false
  | (lo, hi) :: ranges => lo ≤ n && (n ≤ hi || inRanges n ranges)

end StackLang.Text
