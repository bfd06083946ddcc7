/-!
# Sets of code points

A set of characters is given by closed ranges of code points, in rising order.
-/

namespace RecordGraph.Text

abbrev CodePoints := List (Nat × Nat)

namespace CodePoints

def includes (ranges : CodePoints) (code : Nat) : Bool :=
  ranges.any fun range => range.1 ≤ code && code ≤ range.2

theorem includes_iff (ranges : CodePoints) (code : Nat) :
    ranges.includes code = true ↔ ∃ range ∈ ranges, range.1 ≤ code ∧ code ≤ range.2 := by
  simp [includes]

/-- Both ends of a range belong to it. -/
example : CodePoints.includes [(65, 90), (97, 122)] 90 = true := rfl

example : CodePoints.includes [(65, 90), (97, 122)] 91 = false := rfl

end CodePoints
end RecordGraph.Text
