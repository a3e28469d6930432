import Mathlib.Algebra.BigOperators.Fin
import Mathlib.Data.Nat.Digits.Lemmas
import Radix.Limbs.Lemmas

namespace Radix.Limbs

variable {base : Nat}

theorem value_eq_ofDigits (base : Nat) (xs : List Nat) : value base xs = Nat.ofDigits base xs := by
  induction xs with
  | nil => rfl
  | cons x xs ih => rw [value_cons, Nat.ofDigits_cons, ih]

theorem value_eq_sum {R : Type} [CommSemiring R] (base : R) (xs : List R) :
    value base xs = ∑ i : Fin xs.length, xs[i] * base ^ (i : Nat) := by
  induction xs with
  | nil => rfl
  | cons x xs ih =>
    simp only [List.length_cons]
    rw [Fin.sum_univ_succ, value_cons, ih, Finset.mul_sum]
    simp [pow_succ', mul_left_comm]

theorem split_eq_digits (h : 1 < base) (n : Nat) : split base n = Nat.digits base n := by
  fun_induction split base n with
  | case1 n hn =>
    have hz : n = 0 := by omega
    rw [hz, Nat.digits_zero]
  | case2 n hn ih =>
    have hpos : 0 < n := by omega
    rw [ih, Nat.digits_def' h hpos]

theorem split_of_ne_zero (h : 1 < base) {n : Nat} (hn : n ≠ 0) :
    split base n = n % base :: split base (n / base) := by
  rw [split, dif_neg (by omega)]

@[simp] theorem split_zero (base : Nat) : split base 0 = [] := by
  rw [split, dif_pos (Or.inl rfl)]

theorem split_add_mul {x : Nat} (h : 1 < base) (hx : x < base) {v : Nat} (hn : x + base * v ≠ 0) :
    split base (x + base * v) = x :: split base v := by
  rw [split_of_ne_zero h hn, Nat.add_mul_mod_self_left, Nat.mod_eq_of_lt hx,
    Nat.add_mul_div_left _ _ (by omega), Nat.div_eq_of_lt hx, Nat.zero_add]

@[simp] theorem ofNat_zero (base : Nat) : ofNat base 0 = [0] := by
  rw [ofNat, split_zero]

theorem ofNat_of_ne_zero (h : 1 < base) {n : Nat} (hn : n ≠ 0) :
    ofNat base n = Nat.digits base n := by
  rw [ofNat, split_eq_digits h]
  cases hd : Nat.digits base n with
  | nil => exact absurd (Nat.digits_eq_nil_iff_eq_zero.1 hd) hn
  | cons x xs => rfl

theorem ofNat_of_lt (h : 1 < base) {n : Nat} (hn : n < base) : ofNat base n = [n] := by
  by_cases hz : n = 0
  · rw [hz, ofNat_zero]
  · rw [ofNat_of_ne_zero h hz, Nat.digits_of_lt base n hz hn]

theorem ofNat_of_le (h : 1 < base) {n : Nat} (hn : base ≤ n) :
    ofNat base n = n % base :: ofNat base (n / base) := by
  have hq : n / base ≠ 0 := (Nat.div_pos hn (by omega)).ne'
  rw [ofNat_of_ne_zero h (by omega), Nat.digits_def' h (by omega), ofNat_of_ne_zero h hq]

theorem ofNat_one (h : 1 < base) : ofNat base 1 = [1] := ofNat_of_lt h h

theorem canonical_ofNat (h : 1 < base) (n : Nat) : Canonical base (ofNat base n) := by
  by_cases hn : n = 0
  · subst hn
    refine ⟨by simp, fun x hx => ?_, by simp⟩
    obtain rfl : x = 0 := by simpa using hx
    omega
  · rw [ofNat_of_ne_zero h hn]
    have hne : Nat.digits base n ≠ [] := Nat.digits_ne_nil_iff_ne_zero.2 hn
    refine ⟨hne, fun x hx => Nat.digits_lt_base h hx, fun _ => ?_⟩
    rw [List.getLast?_eq_some_getLast hne]
    intro hlast
    exact Nat.getLast_digit_ne_zero base hn (Option.some.inj hlast)

theorem Canonical.eq_ofNat (h : 1 < base) {xs : List Nat} (hc : Canonical base xs) :
    xs = ofNat base (value base xs) := by
  by_cases hx : xs = [0]
  · subst hx
    simp
  · have hdigits : Nat.digits base (value base xs) = xs := by
      rw [value_eq_ofDigits]
      refine Nat.digits_ofDigits base h xs hc.limbs_lt fun hne hlast => hc.top_ne_zero hx ?_
      rw [List.getLast?_eq_some_getLast hne, hlast]
    have hn : value base xs ≠ 0 := by
      rw [← Nat.digits_ne_nil_iff_ne_zero (b := base), hdigits]
      exact hc.nonempty
    rw [ofNat_of_ne_zero h hn, hdigits]

theorem ofNat_injective (h : 1 < base) {m n : Nat} (hmn : ofNat base m = ofNat base n) : m = n := by
  rw [← value_ofNat h m, hmn, value_ofNat h]

@[simp] theorem ofNat_eq_zero_iff (h : 1 < base) {n : Nat} : ofNat base n = [0] ↔ n = 0 := by
  constructor
  · intro hn
    exact ofNat_injective h (hn.trans (ofNat_zero base).symm)
  · rintro rfl
    exact ofNat_zero base

@[simp] theorem ofNat_eq_one_iff (h : 1 < base) {n : Nat} : ofNat base n = [1] ↔ n = 1 := by
  constructor
  · intro hn
    exact ofNat_injective h (hn.trans (ofNat_one h).symm)
  · rintro rfl
    exact ofNat_one h

theorem dropHighZeros_eq_split (h : 1 < base) {xs : List Nat} (hx : ∀ x ∈ xs, x < base) :
    dropHighZeros xs = split base (value base xs) := by
  induction xs with
  | nil => rw [value_nil, split_zero]; rfl
  | cons x xs ih =>
    obtain ⟨hx, hxs⟩ := List.forall_mem_cons.1 hx
    rw [dropHighZeros, ih hxs, value_cons]
    by_cases hv : value base xs = 0
    · rw [hv, split_zero, Nat.mul_zero, Nat.add_zero]
      by_cases hz : x = 0
      · simp [hz]
      · rw [split_of_ne_zero h hz, Nat.mod_eq_of_lt hx, Nat.div_eq_of_lt hx, split_zero]
        simp [hz]
    · have hne : x + base * value base xs ≠ 0 := by
        have := Nat.mul_pos (by omega : 0 < base) (Nat.pos_of_ne_zero hv)
        omega
      rw [split_add_mul h hx hne, split_of_ne_zero h hv]

theorem trim_eq_ofNat (h : 1 < base) {xs : List Nat} (hx : ∀ x ∈ xs, x < base) :
    trim xs = ofNat base (value base xs) := by
  rw [trim, dropHighZeros_eq_split h hx, ofNat]
  cases split base (value base xs) <;> rfl

section

variable {α : Type} [DecidableEq α] [OfNat α 0] {p : α → Bool}

theorem find?_dropHighZeros (hp : p 0 = false) (xs : List α) :
    (dropHighZeros xs).find? p = xs.find? p := by
  induction xs with
  | nil => rfl
  | cons x xs ih =>
    rw [dropHighZeros, List.find?_cons, ← ih]
    cases dropHighZeros xs with
    | nil =>
      by_cases hx : x = 0
      · simp [hx, hp]
      · rw [if_neg hx, List.find?_cons]
    | cons y ys => rw [List.find?_cons]

/-- What is looked for and is not zero is neither dropped with the high zeros nor found elsewhere. -/
theorem find?_trim (hp : p 0 = false) (xs : List α) : (trim xs).find? p = xs.find? p := by
  rw [← find?_dropHighZeros hp xs, trim]
  cases dropHighZeros xs with
  | nil => simp [hp]
  | cons y ys => rfl

end

theorem divideOnce_snd_lt (radix : Nat) {d r : Nat} (hd : 0 < d) (hr : r < d) (xs : List Nat) :
    (divideOnce radix d r xs).2 < d := by
  induction xs generalizing r with
  | nil => exact hr
  | cons x xs ih => exact ih (Nat.mod_lt _ hd)

theorem divideOnce_eq_div_mod (radix : Nat) {d : Nat} (hd : 0 < d) (xs : List Nat) :
    valueFrom radix 0 (divideOnce radix d 0 xs).1 = valueFrom radix 0 xs / d ∧
      (divideOnce radix d 0 xs).2 = valueFrom radix 0 xs % d := by
  have hv := valueFrom_divideOnce radix d 0 0 xs
  have hlt := divideOnce_snd_lt radix hd hd xs
  rw [Nat.mul_zero, Nat.zero_add] at hv
  constructor
  · rw [hv, Nat.mul_add_div hd, Nat.div_eq_of_lt hlt, Nat.add_zero]
  · rw [hv, Nat.mul_add_mod, Nat.mod_eq_of_lt hlt]

theorem recast_eq_split {radix d : Nat} (hr : 0 < radix) (hd : 1 < d) (digits : List Nat) :
    recast radix d digits = split d (valueFrom radix 0 digits) := by
  fun_induction recast radix d digits with
  | case1 digits h => rw [← valueFrom_dropWhile_zero, h]; exact (split_zero d).symm
  | case2 digits x xs h _ ih =>
    obtain ⟨hquotient, hremainder⟩ := divideOnce_eq_div_mod radix (by omega : 0 < d) (x :: xs)
    have hpos := valueFrom_pos radix hr (head_ne_zero_of_dropWhile h) xs
    rw [ih, ← valueFrom_dropWhile_zero radix digits, h, split_of_ne_zero hd hpos.ne', hquotient,
      hremainder]
  | case3 digits x xs h hn => exact absurd ⟨hr, hd⟩ hn

theorem ofDigits_eq_ofNat (h : 1 < base) (digits : List Nat) :
    ofDigits base digits = ofNat base (valueFrom 10 0 digits) := by
  rw [ofDigits, recast_eq_split (by omega) h, ofNat]

theorem toDigits_eq_reverse (h : 0 < base) (limbs : List Nat) :
    toDigits base limbs = (ofNat 10 (value base limbs)).reverse := by
  rw [toDigits, recast_eq_split h (by omega), valueFrom_reverse, ofNat]
  cases split 10 (value base limbs) <;> rfl

theorem length_ofNat_mono (h : 1 < base) {m n : Nat} (hmn : m ≤ n) :
    (ofNat base m).length ≤ (ofNat base n).length := by
  by_cases hm : m = 0
  · subst hm
    rw [ofNat_zero]
    exact List.length_pos_of_ne_nil (canonical_ofNat h n).nonempty
  · rw [ofNat_of_ne_zero h hm, ofNat_of_ne_zero h (by omega)]
    exact Nat.le_length_digits_le base m n hmn

/-- Of two lists of one length the number decides: the highest limbs that differ outweigh all limbs
below them. -/
theorem compareAligned_eq {xs ys : List Nat} (hl : xs.length = ys.length)
    (hx : ∀ x ∈ xs, x < base) (hy : ∀ y ∈ ys, y < base) :
    compareAligned xs ys = Ord.compare (value base xs) (value base ys) := by
  induction xs generalizing ys with
  | nil =>
    obtain rfl : ys = [] := List.eq_nil_of_length_eq_zero hl.symm
    rfl
  | cons x xs ih =>
    cases ys with
    | nil => simp at hl
    | cons y ys =>
      obtain ⟨hx, hxs⟩ := List.forall_mem_cons.1 hx
      obtain ⟨hy, hys⟩ := List.forall_mem_cons.1 hy
      rw [compareAligned, ih (by simpa using hl) hxs hys, value_cons, value_cons]
      -- one more in the limbs above is worth the whole base, which exceeds either lowest limb
      rcases lt_trichotomy (value base xs) (value base ys) with hv | hv | hv
      · have hm := Nat.mul_le_mul_left base hv
        rw [Nat.mul_succ] at hm
        have hlt : x + base * value base xs < y + base * value base ys := by omega
        rw [compare_lt_iff_lt.2 hv, compare_lt_iff_lt.2 hlt]
        rfl
      · rw [hv, compare_eq_iff_eq.2 rfl, Ordering.eq_then, Nat.compare_eq_ite_lt,
          Nat.compare_eq_ite_lt]
        simp only [Nat.add_lt_add_iff_right]
      · have hm := Nat.mul_le_mul_left base hv
        rw [Nat.mul_succ] at hm
        have hgt : y + base * value base ys < x + base * value base xs := by omega
        rw [compare_gt_iff_gt.2 hv, compare_gt_iff_gt.2 hgt]
        rfl

theorem compare_ofNat (h : 1 < base) (m n : Nat) :
    compare (ofNat base m) (ofNat base n) = Ord.compare m n := by
  rw [compare]
  rcases lt_trichotomy (ofNat base m).length (ofNat base n).length with hl | hl | hl
  · have hmn : m < n := by
      by_contra hcon
      have := length_ofNat_mono h (Nat.le_of_not_lt hcon)
      omega
    rw [compare_lt_iff_lt.2 hl, compare_lt_iff_lt.2 hmn]
    rfl
  · rw [compare_eq_iff_eq.2 hl, Ordering.eq_then,
      compareAligned_eq hl (canonical_ofNat h m).limbs_lt (canonical_ofNat h n).limbs_lt,
      value_ofNat h, value_ofNat h]
  · have hmn : n < m := by
      by_contra hcon
      have := length_ofNat_mono h (Nat.le_of_not_lt hcon)
      omega
    rw [compare_gt_iff_gt.2 hl, compare_gt_iff_gt.2 hmn]
    rfl

end Radix.Limbs
