import Radix.Number.Build

namespace Radix.Number

def reconcile (a b : Number) : Calc Number :=
  if a.base = b.base then pure b else b.convert a.base

def compare (a b : Number) : Calc Ordering := do
  let b ← reconcile a b
  return Limbs.compare a.limbs b.limbs

/-- Equality of values. Numbers of different signs are not compared further. -/
def equal (a b : Number) : Calc Bool :=
  if a.negative = b.negative then do
    let order ← compare a b
    return order == .eq
  else pure false

/-- The hash of a number is that of its decimal text, whatever hash texts have. -/
def hashWith (hashText : String → Int) (x : Number) : Int := hashText x.text

end Radix.Number
