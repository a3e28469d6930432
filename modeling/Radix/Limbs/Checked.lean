import Radix.Fault
import Radix.Limbs.Arithmetic

namespace Radix.Limbs

/-- The sum. In base zero only empty limbs have one. -/
def sum (base : Int) (xs ys : List Int) : Except Fault (List Int) :=
  if base = 0 ∧ xs ++ ys ≠ [] then .error .baseZero else .ok (add base xs ys)

def difference (base : Int) (xs ys : List Int) : Except Fault (List Int) :=
  match sub? base xs ys with
  | some limbs => .ok limbs
  | none => .error .limbsExhausted

end Radix.Limbs
