/-! Sets of code points given by the points at which membership changes. The first bound opens a
run, the second closes it, and so on, so a point is inside after an odd number of bounds. -/
namespace Formulary.Text

/-- Whether `n` lies in a run of the increasing list of bounds. -/
def inRuns (bounds : List Nat) (n : Nat) : Bool :=
  (bounds.takeWhile (· ≤ n)).length % 2 == 1

end Formulary.Text
