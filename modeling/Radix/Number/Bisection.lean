import Radix.Number.Product
import Radix.Number.Sum

namespace Radix.Number

def halve (a : Number) : Except Fault Number :=
  ofComputed a.base a.negative (Limbs.halve a.base a.limbs).1

structure Bounds where
  left : Number
  right : Number

/-- What one step of a search finds: the exact answer, the best answer of an interval that cannot
be narrowed, or a narrower interval. -/
inductive Probe where
  | exact (x : Number)
  | settled (x : Number)
  | narrowed (bounds : Bounds)

def Bounds.fuel (bounds : Bounds) : Nat := bounds.right.magnitude - bounds.left.magnitude + 1

def Bounds.middle (bounds : Bounds) : Calc Number := do
  let sum ← add bounds.left bounds.right
  sum.halve

/-- Repeats a step while the left bound is below the right one. Each step narrows the interval,
so fuel above its width is never used up. -/
def search (step : Bounds → Calc Probe) : Nat → Bounds → Calc Number
  | 0, _ => Calc.fail .searchStalled
  | fuel + 1, bounds => do
    match ← compare bounds.left bounds.right with
    | .lt =>
      match ← step bounds with
      | .exact x | .settled x => return x
      | .narrowed narrower => search step fuel narrower
    | _ => return bounds.left

/-- One step toward the largest number whose product with `divisor` is at most `target`. -/
def quotientStep (target divisor : Number) (bounds : Bounds) : Calc Probe := do
  let middle ← bounds.middle
  let product ← multiply middle divisor
  match ← compare product target with
  | .eq => return .exact middle
  | order =>
    match ← compare middle bounds.left with
    | .eq => return .settled middle
    | _ =>
      match order with
      | .lt => return .narrowed ⟨middle, bounds.right⟩
      | _ => return .narrowed ⟨bounds.left, middle⟩

/-- The quotient, truncated toward zero, in the base of the dividend. A divisor of magnitude one
needs no search. -/
def divide (a b : Number) : Calc Number := do
  let b ← reconcile a b
  if b.isZero then Calc.fail (.divisionByZero a)
  else
    let negative := a.negative != b.negative
    if b.isOne then a.withSign negative
    else
      let target ← a.abs
      let divisor ← b.abs
      let bounds : Bounds := ⟨← zero a.base, target⟩
      let quotient ← search (quotientStep target divisor) bounds.fuel bounds
      quotient.withSign negative

/-- The remainder of the truncated quotient; it has the sign of the dividend. -/
def modulo (a b : Number) : Calc Number := do
  if b.negative then Calc.fail (.negativeModulus b)
  else
    let b ← reconcile a b
    let quotient ← divide a b
    let product ← multiply quotient b
    subtract a product

/-- One step toward the largest number whose square is at most `a`. The step settles when it
moves neither bound. -/
def rootStep (a : Number) (bounds : Bounds) : Calc Probe := do
  let middle ← bounds.middle
  let square ← multiply middle middle
  match ← compare square a with
  | .eq => return .exact middle
  | order =>
    let narrower : Bounds :=
      if order = .gt then ⟨bounds.left, middle⟩ else ⟨middle, bounds.right⟩
    match ← compare bounds.left narrower.left with
    | .eq =>
      match ← compare bounds.right narrower.right with
      | .eq => return .settled narrower.left
      | _ => return .narrowed narrower
    | _ => return .narrowed narrower

def squareRoot (a : Number) : Calc Number := do
  if a.negative then Calc.fail (.negativeOperand a)
  else
    let right ← add a (← one a.base)
    let bounds : Bounds := ⟨← zero a.base, right⟩
    search (rootStep a) bounds.fuel bounds

end Radix.Number
