import Radix.Limbs.Basic

namespace Radix.Limbs

/-- The sum of two limb lists and a carry. Quotients are rounded down, so a negative limb borrows
from the limb above it. A positive carry out of the top becomes one more limb. -/
def addCarry (base : Int) : Int → List Int → List Int → List Int
  | c, [], [] => if 0 < c then [c] else []
  | c, x :: xs, [] => (c + x).fmod base :: addCarry base ((c + x).fdiv base) xs []
  | c, [], y :: ys => (c + y).fmod base :: addCarry base ((c + y).fdiv base) [] ys
  | c, x :: xs, y :: ys =>
    (c + x + y).fmod base :: addCarry base ((c + x + y).fdiv base) xs ys

def add (base : Int) (xs ys : List Int) : List Int := addCarry base 0 xs ys

/-- Takes one from the limbs: zero limbs become `base - 1` up to the first that is not zero.
There is nothing to take from when all are zero. -/
def borrow? (base : Int) : List Int → Option (List Int)
  | [] => none
  | x :: xs => if x = 0 then (borrow? base xs).map ((base - 1) :: ·) else some ((x - 1) :: xs)

/-- The difference of two limb lists, as long as the minuend. A limb that is too small takes
`base` by a borrow from the limbs above it. -/
def sub? (base : Int) : List Int → List Int → Option (List Int)
  | xs, [] => some xs
  | [], _ :: _ => none
  | x :: xs, y :: ys =>
    if x < y then do
      let above ← borrow? base xs
      let rest ← sub? base above ys
      return (x + base - y) :: rest
    else do
      let rest ← sub? base xs ys
      return (x - y) :: rest

def ripple? (base : Nat) : Nat → List Nat → Option (List Nat)
  | 0, slots => some slots
  | _ + 1, [] => none
  | c + 1, slot :: slots =>
    (ripple? base ((slot + (c + 1)) / base) slots).map ((slot + (c + 1)) % base :: ·)

def addRow? (base m : Nat) : Nat → List Nat → List Nat → Option (List Nat)
  | c, [], slots => ripple? base c slots
  | _, _ :: _, [] => none
  | c, x :: xs, slot :: slots =>
    (addRow? base m ((x * m + c + slot) / base) xs slots).map ((x * m + c + slot) % base :: ·)

def fillRow? (base m : Nat) (xs slots : List Nat) : Option (List Nat) :=
  if m = 0 then some slots else addRow? base m 0 xs slots

/-- Adds the product of two limb lists into a buffer, a row for each limb of the second, each one
place above the last. `none` means that a row ran over the end of the buffer. -/
def addRows? (base : Nat) (xs : List Nat) : List Nat → List Nat → Option (List Nat)
  | [], slots => some slots
  | m :: ms, slots =>
    (fillRow? base m xs slots).bind fun
      | [] => addRows? base xs ms []
      | slot :: rest => (addRows? base xs ms rest).map (slot :: ·)

/-- The product of two limb lists, in a buffer one limb longer than both together. -/
def mul? (base : Nat) (xs ys : List Nat) : Option (List Nat) :=
  addRows? base xs ys (List.replicate (xs.length + ys.length + 1) 0)

/-- Narrows `low ≤ q < high` to the largest `q` with `2 * q ≤ n`. -/
def bisect (n low high : Nat) : Nat :=
  if 1 < high - low then
    if 2 * ((low + high) / 2) ≤ n then bisect n ((low + high) / 2) high
    else bisect n low ((low + high) / 2)
  else low
termination_by high - low
decreasing_by all_goals omega

/-- Half of a number, from the highest limb down, and the remainder. The base may be odd, so each
limb of the half is searched for and not shifted out. -/
def halve (base : Nat) : List Nat → List Nat × Nat
  | [] => ([], 0)
  | x :: xs =>
    let (above, r) := halve base xs
    let half := bisect (r * base + x) 0 base
    (half :: above, r * base + x - 2 * half)

end Radix.Limbs
