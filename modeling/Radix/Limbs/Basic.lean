namespace Radix.Limbs

/-- The number that limbs denote, in range or not. -/
def value {α : Type} [Add α] [Mul α] [OfNat α 0] (base : α) : List α → α
  | [] => 0
  | x :: xs => x + base * value base xs

/-- The number that digits denote, most significant first, after a leading part `acc`. -/
def valueFrom (radix acc : Nat) : List Nat → Nat
  | [] => acc
  | x :: xs => valueFrom radix (acc * radix + x) xs

/-- The one form of each number: at least one limb, every limb below the base, and no high zero but
the single limb of zero. -/
structure Canonical (base : Nat) (xs : List Nat) : Prop where
  nonempty : xs ≠ []
  limbs_lt : ∀ x ∈ xs, x < base
  top_ne_zero : xs ≠ [0] → xs.getLast? ≠ some 0

variable {α : Type} [DecidableEq α] [OfNat α 0]

def dropHighZeros : List α → List α
  | [] => []
  | x :: xs =>
    match dropHighZeros xs with
    | [] => if x = 0 then [] else [x]
    | y :: ys => x :: y :: ys

def trim (xs : List α) : List α :=
  match dropHighZeros xs with
  | [] => [0]
  | y :: ys => y :: ys

def compareAligned : List Nat → List Nat → Ordering
  | x :: xs, y :: ys => (compareAligned xs ys).then (compare x y)
  | _, _ => .eq

def compare (xs ys : List Nat) : Ordering :=
  (Ord.compare xs.length ys.length).then (compareAligned xs ys)

end Radix.Limbs
