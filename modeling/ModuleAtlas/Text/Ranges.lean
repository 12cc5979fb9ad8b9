/-! Character classes given as ranges of code points. -/

namespace ModuleAtlas.Text

/-- Membership in an ascending list of closed ranges. -/
def inRanges : List (Nat × Nat) → Nat → Bool
  | [], _ => false
  | (low, high) :: rest, n =>
    if n < low then false else if n ≤ high then true else inRanges rest n

end ModuleAtlas.Text
