/-!
# Sets of characters as sorted bounds

A large class of characters is a union of intervals of code points. It is held as the sorted
array of all places where membership changes: first the least member, then the first code point
after its interval, and so on. A code point is a member if an odd number of bounds lies at or
below it.
-/

namespace Widgetry.Text

/-- The places where membership changes, in ascending order. -/
structure Ranges where
  bounds : Array Nat

namespace Ranges

/-- How many of the bounds from index `low` up to `high` lie at or below `c`, plus `low`, if all
bounds before `low` do and none from `high` on does. -/
def rank (r : Ranges) (c : Nat) (low high : Nat) : Nat :=
  if low < high then
    let middle := (low + high) / 2
    if r.bounds.getD middle 0 ≤ c then rank r c (middle + 1) high
    else rank r c low middle
  else low
termination_by high - low
decreasing_by all_goals omega

def contains (r : Ranges) (c : Char) : Bool :=
  r.rank c.toNat 0 r.bounds.size % 2 == 1

end Ranges

end Widgetry.Text
