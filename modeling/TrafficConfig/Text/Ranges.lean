/-!
# Sets of characters

A property of characters that only a table can give is a list of closed ranges of code points.
-/

namespace TrafficConfig

namespace Text

/-- Closed ranges of code points. -/
abbrev Ranges := List (Nat × Nat)

/-- Whether a character lies in one of the ranges. -/
def Ranges.has (ranges : Ranges) (c : Char) : Bool :=
  ranges.any fun (low, high) => low ≤ c.toNat && c.toNat ≤ high

end Text

end TrafficConfig
