import Radix.Limbs.Arithmetic
import Radix.Number.Order

namespace Radix.Number

def multiply (a b : Number) : Calc Number := do
  let b ← reconcile a b
  let limbs ← Calc.ofLimbs? (Limbs.mul? a.base a.limbs b.limbs)
  ofComputed a.base (a.negative != b.negative) limbs

/-- A power with a positive exponent, by repeated squaring. The recursion is one call deep for each
bit of the exponent, and the stack that it takes counts as unbounded. -/
def powerOf (a : Number) (n : Nat) : Calc Number :=
  if _ : n ≤ 1 then pure a
  else do
    let square ← multiply a a
    let root ← powerOf square (n / 2)
    if n % 2 = 0 then return root else multiply a root
termination_by n
decreasing_by omega

def exponentRecord (n : Int) : Record where
  level := .warning
  channel := Channel.arithmetic
  message := "Negative exponent " ++ toString n ++ " treated as 0"
  attributes := [("operator", .text "^")]
  numerals := [n]

/-- A power. The exponent zero gives one, and so does a negative exponent, with a warning. -/
def power (a : Number) (n : Int) : Calc Number := do
  if n < 0 then Calc.write (exponentRecord n)
  if n ≤ 0 then one a.base else powerOf a n.toNat

def powerBy (a : Number) : Value → Calc Number
  | .int n => power a n
  | v => Calc.fail (.exponentNotInteger v.kind)

end Radix.Number
