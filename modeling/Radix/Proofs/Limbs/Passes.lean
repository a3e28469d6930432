import Radix.Proofs.Number.Decimal

namespace Radix.Limbs

/-- One pass of long division by `d` over digits in `radix`, most significant first, behind a
quotient and a remainder: the quotient, which takes no zero before its first other digit, and the
remainder. -/
def dividePass (radix d : Nat) : List Nat → Nat → List Nat → List Nat × Nat
  | quotient, r, [] => (quotient, r)
  | quotient, r, x :: xs =>
    let digit := (r * radix + x) / d
    dividePass radix d (if quotient = [] ∧ digit = 0 then [] else quotient ++ [digit])
      ((r * radix + x) % d) xs

/-- The remainders of passes that go on until no quotient is left, unless that takes more than
`fuel` passes. -/
def passes? (radix d : Nat) : Nat → List Nat → Option (List Nat)
  | _, [] => some []
  | 0, _ :: _ => none
  | fuel + 1, x :: xs =>
    let (quotient, r) := dividePass radix d [] 0 (x :: xs)
    (passes? radix d fuel quotient).map (r :: ·)

theorem dividePass_of_ne_nil (radix d r : Nat) {quotient : List Nat} (h : quotient ≠ [])
    (xs : List Nat) :
    dividePass radix d quotient r xs =
      (quotient ++ (divideOnce radix d r xs).1, (divideOnce radix d r xs).2) := by
  induction xs generalizing quotient r with
  | nil => simp [dividePass, divideOnce]
  | cons x xs ih =>
    rw [dividePass, if_neg (fun hq => h hq.1), ih _ (by simp)]
    simp [divideOnce]

theorem dividePass_nil (radix d r : Nat) (xs : List Nat) :
    dividePass radix d [] r xs =
      ((divideOnce radix d r xs).1.dropWhile (· == 0), (divideOnce radix d r xs).2) := by
  induction xs generalizing r with
  | nil => rfl
  | cons x xs ih =>
    by_cases hdigit : (r * radix + x) / d = 0
    · rw [dividePass, if_pos ⟨rfl, hdigit⟩, ih]
      simp [divideOnce, hdigit]
    · rw [dividePass, if_neg (fun hq => hdigit hq.2), dividePass_of_ne_nil _ _ _ (by simp)]
      simp [divideOnce, hdigit]

theorem dividePass_spec {radix d : Nat} (hr : 0 < radix) (hd : 0 < d) (digits : List Nat) :
    valueFrom radix 0 (dividePass radix d [] 0 digits).1 = valueFrom radix 0 digits / d ∧
      (dividePass radix d [] 0 digits).2 = valueFrom radix 0 digits % d ∧
      ((dividePass radix d [] 0 digits).1 = [] ↔ valueFrom radix 0 digits < d) := by
  obtain ⟨hquotient, hremainder⟩ := divideOnce_eq_div_mod radix hd digits
  rw [dividePass_nil]
  refine ⟨by rw [valueFrom_dropWhile_zero, hquotient], hremainder, ?_⟩
  · rw [← Nat.div_eq_zero_iff_lt hd, ← hquotient, ← valueFrom_dropWhile_zero]
    cases hq : (divideOnce radix d 0 digits).1.dropWhile (· == 0) with
    | nil => simp [valueFrom]
    | cons x xs =>
      have := valueFrom_pos radix hr (head_ne_zero_of_dropWhile hq) xs
      simp only [reduceCtorEq, false_iff]
      omega

/-- The passes over digits leave the digits of their number in base `d`, one each. -/
theorem passes?_eq {radix d : Nat} (hr : 0 < radix) (hd : 1 < d) {digits : List Nat}
    (hne : digits ≠ []) (fuel : Nat) :
    passes? radix d fuel digits =
      if (ofNat d (valueFrom radix 0 digits)).length ≤ fuel then
        some (ofNat d (valueFrom radix 0 digits))
      else none := by
  induction fuel generalizing digits with
  | zero =>
    obtain ⟨x, xs, rfl⟩ := List.exists_cons_of_ne_nil hne
    have := (canonical_ofNat hd (valueFrom radix 0 (x :: xs))).nonempty
    simp [passes?, this]
  | succ fuel ih =>
    obtain ⟨x, xs, rfl⟩ := List.exists_cons_of_ne_nil hne
    obtain ⟨hquotient, hremainder, hlast⟩ := dividePass_spec hr (by omega : 0 < d) (x :: xs)
    rw [passes?]
    by_cases hlt : valueFrom radix 0 (x :: xs) < d
    · simp only [hlast.2 hlt, hremainder, ofNat_of_lt hd hlt, Nat.mod_eq_of_lt hlt]
      simp [passes?]
    · have hrest := ih (hlast.not.2 hlt)
      simp only [hrest, hquotient, hremainder, ofNat_of_le hd (not_lt.1 hlt), List.length_cons,
        Nat.add_le_add_iff_right]
      split_ifs <;> rfl

/-- The decimal text of limbs, in range or not, by passes with the highest limb first: each pass
gives one digit more from below. -/
def render? (base fuel : Nat) (limbs : List Nat) : Option String :=
  (passes? base 10 fuel limbs.reverse).map fun
    | [] => "0"
    | digits => String.ofList (digits.reverse.map Nat.digitChar)

theorem length_toDecimal {base : Nat} (h : 0 < base) (limbs : List Nat) :
    (toDecimal base limbs).length = (ofNat 10 (value base limbs)).length := by
  rw [toDecimal, toDigits_eq_reverse h, String.length_ofList, List.length_map, List.length_reverse]

theorem render?_eq {base fuel : Nat} (h : 0 < base) {limbs : List Nat}
    (hfuel : (toDecimal base limbs).length ≤ fuel) :
    render? base fuel limbs = some (toDecimal base limbs) := by
  by_cases hne : limbs = []
  · subst hne
    rw [toDecimal_eq h, value_nil, Nat.toString_eq_ofList_toDigits, Nat.toDigits_zero]
    cases fuel <;> rfl
  · have hpasses := passes?_eq h (by omega : 1 < 10) (List.reverse_ne_nil_iff.2 hne) fuel
    rw [length_toDecimal h] at hfuel
    rw [valueFrom_reverse, if_pos hfuel] at hpasses
    have hdigits := (canonical_ofNat (by omega : 1 < 10) (value base limbs)).nonempty
    rw [render?, hpasses, toDecimal, toDigits_eq_reverse h]
    cases hd : ofNat 10 (value base limbs) with
    | nil => exact absurd hd hdigits
    | cons x xs => rfl

theorem head?_toDigits {n : Nat} (hn : (Nat.toDigits 10 n).head? = some '0') :
    Nat.toDigits 10 n = ['0'] := by
  rw [← map_digitChar_ofNat, List.head?_map, List.head?_reverse] at hn
  obtain ⟨d, hlast, hd⟩ := Option.map_eq_some_iff.1 hn
  rw [Nat.digitChar_eq_zero.1 hd] at hlast
  by_contra hzero
  have hcanonical := canonical_ofNat (by omega : 1 < 10) n
  refine hcanonical.top_ne_zero (fun hz => hzero ?_) hlast
  rw [← map_digitChar_ofNat, hz]
  rfl

/-- Limbs of any size, with any high zeros or none at all, are written as the number that they
denote: by its digits, without a zero in front except for zero itself. -/
theorem rendering_exact {base : Nat} (h : 1 < base) (limbs : List Nat) :
    toDecimal base limbs = toString (∑ i : Fin limbs.length, limbs[i] * base ^ (i : Nat)) ∧
    (∃ digits, Text.Writes false digits (toDecimal base limbs) ∧
      Text.decimalValue digits = ∑ i : Fin limbs.length, limbs[i] * base ^ (i : Nat) ∧
      (digits.head? = some '0' → digits = ['0'])) ∧
    ∀ fuel, (toDecimal base limbs).length ≤ fuel →
      render? base fuel limbs = some (toDecimal base limbs) := by
  have hpos : 0 < base := by omega
  have hwrites := Number.writes_toString_signed false (value base limbs)
  rw [← value_eq_sum]
  refine ⟨toDecimal_eq hpos limbs, ?_, fun fuel hfuel => render?_eq hpos hfuel⟩
  rw [toDecimal_eq hpos]
  exact ⟨_, hwrites, Text.decimalValue_toDigits _, head?_toDigits⟩

theorem rendering_exact_wide :
    1 < 7 ∧ toDecimal 7 [12, 0, 20, 0, 0] = "992" ∧
    render? 7 3 [12, 0, 20, 0, 0] = some "992" ∧ toDecimal 7 [] = "0" := by
  have hbase : 1 < 7 := by decide
  obtain ⟨htext, -, hpasses⟩ := rendering_exact hbase [12, 0, 20, 0, 0]
  have hwide : toDecimal 7 [12, 0, 20, 0, 0] = "992" := htext.trans (by decide +kernel)
  rw [hwide] at hpasses
  exact ⟨hbase, hwide, hpasses 3 (by decide), (rendering_exact hbase []).1⟩

end Radix.Limbs
