import Radix.Limbs.Basic

namespace Radix.Limbs

/-- One pass of long division by `d` over digits in `radix`, most significant first, with a
remainder carried in: the quotient digits and the last remainder. -/
def divideOnce (radix d : Nat) : Nat → List Nat → List Nat × Nat
  | r, [] => ([], r)
  | r, x :: xs =>
    let t := r * radix + x
    let (q, last) := divideOnce radix d (t % d) xs
    (t / d :: q, last)

theorem valueFrom_divideOnce (radix d a r : Nat) (xs : List Nat) :
    valueFrom radix (d * a + r) xs =
      d * valueFrom radix a (divideOnce radix d r xs).1 + (divideOnce radix d r xs).2 := by
  induction xs generalizing a r with
  | nil => rfl
  | cons x xs ih =>
    have h : (d * a + r) * radix + x =
        d * (a * radix + (r * radix + x) / d) + (r * radix + x) % d := by
      rw [Nat.mul_add, Nat.add_assoc, Nat.div_add_mod, Nat.add_mul, Nat.mul_assoc, Nat.add_assoc]
    simp only [valueFrom, divideOnce, h, ih]

theorem valueFrom_dropWhile_zero (radix : Nat) (xs : List Nat) :
    valueFrom radix 0 (xs.dropWhile (· == 0)) = valueFrom radix 0 xs := by
  induction xs with
  | nil => rfl
  | cons x xs ih =>
    by_cases hx : x = 0
    · subst hx; simpa [valueFrom] using ih
    · simp [hx]

theorem le_valueFrom (radix : Nat) (h : 0 < radix) (acc : Nat) (xs : List Nat) :
    acc ≤ valueFrom radix acc xs := by
  induction xs generalizing acc with
  | nil => exact Nat.le_refl _
  | cons x xs ih =>
    exact Nat.le_trans (Nat.le_trans (Nat.le_mul_of_pos_right _ h) (Nat.le_add_right _ x)) (ih _)

theorem valueFrom_pos (radix : Nat) (h : 0 < radix) {x : Nat} (hx : x ≠ 0) (xs : List Nat) :
    0 < valueFrom radix 0 (x :: xs) := by
  have := le_valueFrom radix h (0 * radix + x) xs
  simp only [valueFrom]
  omega

theorem head_ne_zero_of_dropWhile {xs ys : List Nat} {y : Nat}
    (h : xs.dropWhile (· == 0) = y :: ys) : y ≠ 0 := by
  have := List.head?_dropWhile_not (· == 0) xs
  simp_all

theorem valueFrom_quotient_lt {radix d x : Nat} {digits xs : List Nat} (hd : 0 < radix ∧ 1 < d)
    (h : digits.dropWhile (· == 0) = x :: xs) :
    valueFrom radix 0 (divideOnce radix d 0 (x :: xs)).1 < valueFrom radix 0 digits := by
  have hv := valueFrom_divideOnce radix d 0 0 (x :: xs)
  have hp := valueFrom_pos radix hd.1 (head_ne_zero_of_dropWhile h) xs
  rw [← valueFrom_dropWhile_zero radix digits, h]
  rw [Nat.mul_zero, Nat.zero_add] at hv
  rw [hv] at hp ⊢
  generalize valueFrom radix 0 (divideOnce radix d 0 (x :: xs)).1 = q at hp ⊢
  generalize (divideOnce radix d 0 (x :: xs)).2 = r at hp ⊢
  rcases Nat.eq_zero_or_pos q with rfl | hq
  · omega
  · have : 2 * q ≤ d * q := Nat.mul_le_mul_right q hd.2
    omega

/-- The digits in base `d` of the number that digits in `radix` denote: the one list least
significant first, the other most. Repeated long division gives a digit a pass; leading zeros
of a quotient are dropped, and nothing is left of zero. -/
def recast (radix d : Nat) (digits : List Nat) : List Nat :=
  match _ : digits.dropWhile (· == 0) with
  | [] => []
  | x :: xs =>
    if _ : 0 < radix ∧ 1 < d then
      (divideOnce radix d 0 (x :: xs)).2 :: recast radix d (divideOnce radix d 0 (x :: xs)).1
    else []
termination_by valueFrom radix 0 digits
decreasing_by exact valueFrom_quotient_lt ‹_› ‹_›

def ofDigits (base : Nat) (digits : List Nat) : List Nat :=
  match recast 10 base digits with
  | [] => [0]
  | limbs => limbs

def toDigits (base : Nat) (limbs : List Nat) : List Nat :=
  match recast base 10 limbs.reverse with
  | [] => [0]
  | digits => digits.reverse

def toDecimal (base : Nat) (limbs : List Nat) : String :=
  String.ofList ((toDigits base limbs).map Nat.digitChar)

def split (base n : Nat) : List Nat :=
  if _ : n = 0 ∨ base < 2 then [] else n % base :: split base (n / base)
termination_by n
decreasing_by exact Nat.div_lt_self (by omega) (by omega)

def ofNat (base n : Nat) : List Nat :=
  match split base n with
  | [] => [0]
  | limbs => limbs

end Radix.Limbs
