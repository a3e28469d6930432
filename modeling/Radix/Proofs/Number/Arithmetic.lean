import Radix.Number.Product
import Radix.Number.Sum
import Radix.Proofs.Limbs.Product
import Radix.Proofs.Number.Base

namespace Radix.Number

variable {base : Nat}

theorem inRange_integers (h : 1 < base) (n : Int) : Limbs.InRange base (ofInt base n).integers :=
  Limbs.inRange_map_ofNat (Limbs.canonical_ofNat h n.natAbs).limbs_lt

theorem value_integers (h : 1 < base) (n : Int) :
    Limbs.value (base : Int) (ofInt base n).integers = n.natAbs := by
  rw [integers, limbs_ofInt, Limbs.value_map_ofNat, Limbs.value_ofNat h]

theorem signed_add (negative : Bool) (m n : Nat) :
    signed negative (m + n) = signed negative m + signed negative n := by
  cases negative
  · simp [signed]
  · simp only [signed, if_true]
    omega

theorem signed_sub (negative : Bool) {m n : Nat} (h : n ≤ m) :
    signed negative (m - n) = signed negative m + signed (!negative) n := by
  cases negative
  · simp only [signed, Bool.false_eq_true, if_false, Bool.not_false, if_true]
    omega
  · simp only [signed, Bool.not_true, Bool.false_eq_true, if_false, if_true]
    omega

theorem difference_ofInt (h : 1 < base) {m n : Int} (hmn : n.natAbs ≤ m.natAbs) (negative : Bool) :
    ∃ limbs, Limbs.difference base (ofInt base m).integers (ofInt base n).integers = .ok limbs ∧
      ofLimbs base negative limbs = .ok (ofInt base (signed negative (m.natAbs - n.natAbs))) := by
  have hm := value_integers h m
  have hn := value_integers h n
  have hlength : (ofInt base n).integers.length ≤ (ofInt base m).integers.length := by
    simpa [integers] using Limbs.length_ofNat_mono h hmn
  obtain ⟨limbs, hlimbs, hrange, -⟩ := Limbs.exists_sub (by omega) (inRange_integers h m)
    (inRange_integers h n) hlength (by rw [hm, hn]; omega)
  have hvalue := Limbs.value_sub hlimbs
  refine ⟨limbs, by rw [Limbs.difference, hlimbs], ?_⟩
  have htoNat : (Limbs.value (base : Int) limbs).toNat = m.natAbs - n.natAbs := by omega
  rw [ofLimbs_eq h negative hrange, htoNat]

theorem add_ofInt (h : 1 < base) (m n : Int) :
    add (ofInt base m) (ofInt base n) = ⟨.ok (ofInt base (m + n)), []⟩ := by
  have hm := signed_natAbs m
  have hn := signed_natAbs n
  rw [add, reconcile_ofInt, Calc.ok_bind]
  by_cases hs : (ofInt base m).negative = (ofInt base n).negative
  · have hrm := inRange_integers h m
    have hrn := inRange_integers h n
    have hsum : (Limbs.value (base : Int)
        (Limbs.add base (ofInt base m).integers (ofInt base n).integers)).toNat =
        m.natAbs + n.natAbs := by
      rw [Limbs.value_add (by omega) hrm hrn, value_integers h, value_integers h]
      omega
    have hint : signed (ofInt base m).negative (m.natAbs + n.natAbs) = m + n := by
      rw [signed_add, negative_ofInt, hm]
      rw [negative_ofInt, negative_ofInt] at hs
      rw [hs, hn]
    rw [if_pos hs, base_ofInt, ofLimbs_eq h _ (Limbs.inRange_add (by omega) hrm hrn), hsum, hint,
      Calc.lift_ok]
  · have hopp : decide (n < 0) = !decide (m < 0) := by
      simpa [Bool.eq_not, eq_comm] using hs
    rw [if_neg hs, compare_ofInt h, Calc.ok_bind]
    rcases lt_trichotomy m.natAbs n.natAbs with hlt | heq | hgt
    · obtain ⟨limbs, hlimbs, hnumber⟩ := difference_ofInt h hlt.le (n < 0)
      have hint : signed (n < 0) (n.natAbs - m.natAbs) = m + n := by
        rw [signed_sub _ hlt.le, hn, hopp, Bool.not_not, hm, add_comm]
      rw [compare_lt_iff_lt.2 hlt]
      simp [hlimbs, hnumber, hint]
    · have hint : m + n = 0 := by
        have := decide_eq_decide.not.1 hs
        omega
      rw [compare_eq_iff_eq.2 heq]
      simp [zero_eq h, hint]
    · obtain ⟨limbs, hlimbs, hnumber⟩ := difference_ofInt h hgt.le (m < 0)
      have hint : signed (m < 0) (m.natAbs - n.natAbs) = m + n := by
        rw [signed_sub _ hgt.le, hm, ← hopp, hn]
      rw [compare_gt_iff_gt.2 hgt]
      simp [hlimbs, hnumber, hint]

theorem add_eq {a b : Number} (ha : a.WellFormed) (hb : b.WellFormed) :
    add a b = ⟨.ok (ofInt a.base (a.toInt + b.toInt)), conversionLog b.base a.base⟩ := by
  rw [eq_of_reconcile add (fun _ _ => rfl) ha hb (add_ofInt ha.one_lt_base a.toInt b.toInt),
    List.append_nil]

theorem subtract_ofInt (h : 1 < base) (m n : Int) :
    subtract (ofInt base m) (ofInt base n) = ⟨.ok (ofInt base (m - n)), []⟩ := by
  have hneg : (ofInt base n).negate = .ok (ofInt base (-n)) := by
    rw [negate_eq (wellFormed_ofInt h n), toInt_ofInt h, base_ofInt]
  rw [subtract, reconcile_ofInt, Calc.ok_bind, hneg, Calc.lift_ok, Calc.ok_bind, add_ofInt h,
    ← sub_eq_add_neg]

theorem subtract_eq {a b : Number} (ha : a.WellFormed) (hb : b.WellFormed) :
    subtract a b = ⟨.ok (ofInt a.base (a.toInt - b.toInt)), conversionLog b.base a.base⟩ := by
  rw [eq_of_reconcile subtract (fun _ _ => rfl) ha hb (subtract_ofInt ha.one_lt_base a.toInt b.toInt),
    List.append_nil]

theorem signed_mul (x y : Bool) (m n : Nat) :
    signed (x != y) (m * n) = signed x m * signed y n := by
  cases x <;> cases y <;> simp [signed]

theorem multiply_ofInt (h : 1 < base) (m n : Int) :
    multiply (ofInt base m) (ofInt base n) = ⟨.ok (ofInt base (m * n)), []⟩ := by
  obtain ⟨limbs, hlimbs, hrange, hvalue⟩ := Limbs.exists_mul h
    (Limbs.canonical_ofNat h m.natAbs).limbs_lt (Limbs.canonical_ofNat h n.natAbs).limbs_lt
  rw [Limbs.value_ofNat h, Limbs.value_ofNat h] at hvalue
  rw [multiply, reconcile_ofInt, Calc.ok_bind, base_ofInt, limbs_ofInt, limbs_ofInt, hlimbs,
    Calc.ofLimbs?_some, Calc.ok_bind, ofComputed_eq h _ hrange, hvalue, signed_mul,
    negative_ofInt, negative_ofInt, signed_natAbs, signed_natAbs, Calc.lift_ok]

theorem multiply_eq {a b : Number} (ha : a.WellFormed) (hb : b.WellFormed) :
    multiply a b = ⟨.ok (ofInt a.base (a.toInt * b.toInt)), conversionLog b.base a.base⟩ := by
  rw [eq_of_reconcile multiply (fun _ _ => rfl) ha hb (multiply_ofInt ha.one_lt_base a.toInt b.toInt),
    List.append_nil]

theorem powerOf_ofInt (h : 1 < base) (m : Int) {n : Nat} (hn : 0 < n) :
    powerOf (ofInt base m) n = ⟨.ok (ofInt base (m ^ n)), []⟩ := by
  induction n using Nat.strong_induction_on generalizing m with
  | _ n ih =>
    rw [powerOf]
    by_cases hle : n ≤ 1
    · obtain rfl : n = 1 := by omega
      rw [dif_pos le_rfl, pow_one]
      rfl
    · -- the recursion is on the square, so the hypothesis is used at another number
      have hroot := ih (n / 2) (by omega) (m * m) (by omega)
      have hsquare : (m * m) ^ (n / 2) = m ^ (2 * (n / 2)) := by rw [pow_mul, pow_two]
      rw [dif_neg hle, multiply_ofInt h, Calc.ok_bind, hroot, Calc.ok_bind, hsquare]
      by_cases hodd : n % 2 = 0
      · rw [if_pos hodd, show 2 * (n / 2) = n by omega]
        rfl
      · rw [if_neg hodd, multiply_ofInt h, ← pow_succ', show 2 * (n / 2) + 1 = n by omega]

theorem power_eq {a : Number} (ha : a.WellFormed) (n : Int) :
    power a n = ⟨.ok (ofInt a.base (a.toInt ^ n.toNat)), if n < 0 then [exponentRecord n] else []⟩ := by
  rcases lt_trichotomy n 0 with hneg | rfl | hpos
  · rw [power, if_pos hneg, if_pos hneg, if_pos hneg.le, one_eq ha.one_lt_base,
      Int.toNat_of_nonpos hneg.le, pow_zero]
    rfl
  · rw [power, if_neg (lt_irrefl 0), if_neg (lt_irrefl 0), if_pos le_rfl, one_eq ha.one_lt_base,
      Int.toNat_zero, pow_zero]
    rfl
  · have hp := powerOf_ofInt ha.one_lt_base a.toInt (n := n.toNat) (by omega)
    rw [← ha.eq_ofInt] at hp
    rw [power, if_neg (by omega), if_neg (by omega), if_neg (by omega), hp]

end Radix.Number
