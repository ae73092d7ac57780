/-!
# Arithmetic progressions

A range counts from a start in equal steps and ends before its stop. It is handled by its three
numbers alone, however long it is.

## Main definitions

* `Range.length`, `Range.get` — the number of terms, and the terms
* `Range.agree` — two ranges with the same terms
-/

namespace Conformance.Range

/-- The number of terms. -/
def length (start stop step : Int) : Nat :=
  if 0 < step then ((stop - start + step - 1) / step).toNat
  else if step < 0 then ((start - stop - step - 1) / (-step)).toNat
  else 0

/-- The term at an index. -/
def get (start step : Int) (index : Nat) : Int := start + step * index

/-- Whether two ranges have the same terms: the step matters only from two terms on, and the start
only from one. -/
def agree (start stop step start' stop' step' : Int) : Bool :=
  let n := length start stop step
  n == length start' stop' step' &&
    (n == 0 || (start == start' && (n == 1 || step == step')))

example : length 0 10 3 = 4 ∧ length 5 0 (-1) = 5 ∧ length 3 3 1 = 0 ∧ length 4 0 1 = 0 := by decide

end Conformance.Range
