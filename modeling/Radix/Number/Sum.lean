import Radix.Limbs.Checked
import Radix.Number.Order

namespace Radix.Number

/-- The sum in the base of the first. Opposite signs take the smaller magnitude from the larger
and keep the sign of the larger. -/
def add (a b : Number) : Calc Number := do
  let b ← reconcile a b
  if a.negative = b.negative then
    ofLimbs a.base a.negative (Limbs.add a.base a.integers b.integers)
  else
    match ← compare a b with
    | .eq => zero a.base
    | .lt =>
      let limbs ← Limbs.difference a.base b.integers a.integers
      ofLimbs a.base b.negative limbs
    | .gt =>
      let limbs ← Limbs.difference a.base a.integers b.integers
      ofLimbs a.base a.negative limbs

def subtract (a b : Number) : Calc Number := do
  let b ← reconcile a b
  let opposite ← b.negate
  add a opposite

end Radix.Number
