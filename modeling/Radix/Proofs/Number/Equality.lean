import Radix.Number.Operand
import Radix.Proofs.Number.Base

namespace Radix

/-- How the order of two numbers is told: minus one, zero or one. -/
def orderSign : Ordering → Int
  | .lt => -1
  | .eq => 0
  | .gt => 1

theorem orderSign_compare (m n : Nat) : orderSign (compare m n) = ((m : Int) - n).sign := by
  rcases lt_trichotomy m n with hlt | heq | hgt
  · rw [compare_lt_iff_lt.2 hlt, Int.sign_eq_neg_one_of_neg (by omega)]
    rfl
  · rw [compare_eq_iff_eq.2 heq, heq, sub_self, Int.sign_zero]
    rfl
  · rw [compare_gt_iff_gt.2 hgt, Int.sign_eq_one_of_pos (by omega)]
    rfl

namespace Number

variable {x y z : Number}

theorem negative_eq_iff (hx : x.WellFormed) (hy : y.WellFormed) :
    x.negative = y.negative ↔ (x.toInt < 0 ↔ y.toInt < 0) := by
  rw [← hx.negative_iff, ← hy.negative_iff]
  exact Bool.eq_iff_iff

theorem equal_outcome (hx : x.WellFormed) (hy : y.WellFormed) :
    (equal x y).outcome = .ok (decide (x.toInt = y.toInt)) := by
  have hmx := natAbs_toInt x
  have hmy := natAbs_toInt y
  unfold equal
  by_cases hsign : x.negative = y.negative
  · have hvalue : x.magnitude = y.magnitude ↔ x.toInt = y.toInt := by
      rw [negative_eq_iff hx hy] at hsign
      omega
    have horder : (Ord.compare x.magnitude y.magnitude == .eq) = decide (x.toInt = y.toInt) := by
      rw [Bool.eq_iff_iff, beq_iff_eq, compare_eq_iff_eq, decide_eq_true_eq, hvalue]
    rw [if_pos hsign, compare_eq hx hy]
    simp [horder]
  · -- numbers of different signs are not compared, and have different values
    have hvalue : x.toInt ≠ y.toInt := by
      intro heq
      apply hsign
      rw [negative_eq_iff hx hy, heq]
    rw [if_neg hsign, decide_eq_false hvalue]
    rfl

theorem equal_ofInt_outcome (hx : x.WellFormed) (n : Int) :
    (equal x (ofInt x.base n)).outcome = .ok (decide (x.toInt = n)) := by
  rw [equal_outcome hx (wellFormed_ofInt hx.one_lt_base n), toInt_ofInt hx.one_lt_base]

theorem equivalence_equal :
    Equivalence fun x y : {x : Number // x.WellFormed} => (equal x y).outcome = .ok true := by
  have hequal : ∀ x y : {x : Number // x.WellFormed},
      (equal x y).outcome = .ok true ↔ x.val.toInt = y.val.toInt := by
    intro x y
    rw [equal_outcome x.property y.property, Except.ok.injEq, decide_eq_true_eq]
  constructor
  · intro x
    exact (hequal x x).2 rfl
  · intro x y hxy
    exact (hequal y x).2 ((hequal x y).1 hxy).symm
  · intro x y z hxy hyz
    exact (hequal x z).2 (((hequal x y).1 hxy).trans ((hequal y z).1 hyz))

theorem toString_int_injective : Function.Injective (toString : Int → String) := by
  intro m n hmn
  have hm := ofText_toString (by decide : 1 < 2) m
  have hn := ofText_toString (by decide : 1 < 2) n
  rw [hmn] at hm
  have hnumber := Except.ok.inj (hm.symm.trans hn)
  have hvalue := congrArg toInt hnumber
  rwa [toInt_ofInt (by decide), toInt_ofInt (by decide)] at hvalue

theorem text_eq_text_iff (hx : x.WellFormed) (hy : y.WellFormed) :
    x.text = y.text ↔ x.toInt = y.toInt := by
  rw [text_eq hx, text_eq hy]
  exact toString_int_injective.eq_iff

theorem limbs_and_negative_eq_iff (hx : x.WellFormed) (hy : y.WellFormed) (hbase : x.base = y.base) :
    x.limbs = y.limbs ∧ x.negative = y.negative ↔ x.toInt = y.toInt := by
  constructor
  · rintro ⟨hlimbs, hsign⟩
    unfold toInt magnitude
    rw [hlimbs, hsign, hbase]
  · intro hvalue
    have hnumber : x = y := by rw [hx.eq_ofInt, hy.eq_ofInt, hvalue, hbase]
    exact ⟨congrArg limbs hnumber, congrArg negative hnumber⟩

theorem compare_outcome (hx : x.WellFormed) (hy : y.WellFormed) :
    (compare x y).outcome = .ok (Ord.compare x.magnitude y.magnitude) := by
  rw [compare_eq hx hy]

theorem orderSign_compare_magnitude (x y : Number) :
    orderSign (Ord.compare x.magnitude y.magnitude) = (|x.toInt| - |y.toInt|).sign := by
  rw [orderSign_compare, Int.abs_eq_natAbs, Int.abs_eq_natAbs, natAbs_toInt, natAbs_toInt]

/-- Equality is that of the integers, of the texts and, in one base, of limbs and sign; equal
numbers have equal hashes. A comparison gives the order of the magnitudes, the reverse comparison
gives the reverse order, and orders chain. A plain integer is equal to the numbers that it is the
integer of. -/
theorem equality_and_order_by_value (hx : x.WellFormed) (hy : y.WellFormed) (hz : z.WellFormed) :
    ((Operand.equal (.number x) (.number y)).outcome = .ok (decide (x.toInt = y.toInt)) ∧
      (x.toInt = y.toInt ↔ x.text = y.text) ∧
      (x.base = y.base → (x.toInt = y.toInt ↔ x.limbs = y.limbs ∧ x.negative = y.negative)) ∧
      (∀ hashText, x.toInt = y.toInt → x.hashWith hashText = y.hashWith hashText) ∧
      Equivalence fun x y : {x : Number // x.WellFormed} =>
        (Operand.equal (.number x) (.number y)).outcome = .ok true) ∧
    (∃ order, (compare x y).outcome = .ok order ∧ (compare y x).outcome = .ok order.swap ∧
      orderSign order = (|x.toInt| - |y.toInt|).sign) ∧
    (∀ order order', (compare x y).outcome = .ok order → (compare y z).outcome = .ok order' →
      order.isLE → order'.isLE → ∃ order'', (compare x z).outcome = .ok order'' ∧ order''.isLE) ∧
    ∀ n : Int, (Operand.equal (.number x) (.plain (.int n))).outcome = .ok (decide (x.toInt = n)) ∧
      (Operand.equal (.plain (.int n)) (.number x)).outcome = .ok (decide (x.toInt = n)) := by
  have htext := text_eq_text_iff hx hy
  refine ⟨⟨equal_outcome hx hy, htext.symm, ?_, ?_, equivalence_equal⟩, ?_, ?_, ?_⟩
  · intro hbase
    exact (limbs_and_negative_eq_iff hx hy hbase).symm
  · intro hashText hvalue
    exact congrArg hashText (htext.2 hvalue)
  · refine ⟨_, compare_outcome hx hy, ?_, orderSign_compare_magnitude x y⟩
    rw [compare_outcome hy hx, Nat.compare_swap]
  · intro order order' hxy hyz hle hle'
    rw [compare_outcome hx hy, Except.ok.injEq] at hxy
    rw [compare_outcome hy hz, Except.ok.injEq] at hyz
    subst hxy hyz
    rw [Nat.isLE_compare] at hle hle'
    exact ⟨_, compare_outcome hx hz, Nat.isLE_compare.2 (hle.trans hle')⟩
  · intro n
    have hint := equal_ofInt_outcome hx n
    exact ⟨hint, hint⟩

theorem equality_and_order_by_value_thousand :
    (⟨256, [232, 3], true⟩ : Number).WellFormed ∧ (⟨11, [10, 2, 8], true⟩ : Number).WellFormed ∧
    (⟨2, [1, 1, 1, 0, 0, 1, 1, 1, 1, 1], false⟩ : Number).WellFormed ∧
    (Operand.equal (.number ⟨256, [232, 3], true⟩) (.number ⟨11, [10, 2, 8], true⟩)).outcome =
      .ok true ∧
    (⟨256, [232, 3], true⟩ : Number).text = (⟨11, [10, 2, 8], true⟩ : Number).text ∧
    (compare ⟨2, [1, 1, 1, 0, 0, 1, 1, 1, 1, 1], false⟩ ⟨256, [232, 3], true⟩).outcome = .ok .lt ∧
    (compare ⟨256, [232, 3], true⟩ ⟨2, [1, 1, 1, 0, 0, 1, 1, 1, 1, 1], false⟩).outcome = .ok .gt ∧
    (Operand.equal (.plain (.int (-1000))) (.number ⟨11, [10, 2, 8], true⟩)).outcome = .ok true := by
  have hbytes : ofInt 256 (-1000) = ⟨256, [232, 3], true⟩ := by decide +kernel
  have heleven : ofInt 11 (-1000) = ⟨11, [10, 2, 8], true⟩ := by decide +kernel
  have hbits : ofInt 2 999 = ⟨2, [1, 1, 1, 0, 0, 1, 1, 1, 1, 1], false⟩ := by decide +kernel
  have hx := wellFormed_ofInt (by decide : 1 < 256) (-1000)
  have hy := wellFormed_ofInt (by decide : 1 < 11) (-1000)
  have hz := wellFormed_ofInt (by decide : 1 < 2) 999
  rw [hbytes] at hx
  rw [heleven] at hy
  rw [hbits] at hz
  obtain ⟨⟨hequal, htext, -⟩, -⟩ := equality_and_order_by_value hx hy hz
  obtain ⟨-, ⟨order, horder, hswap, hsign⟩, -⟩ := equality_and_order_by_value hz hx hy
  obtain ⟨-, -, -, hint⟩ := equality_and_order_by_value hy hx hz
  refine ⟨hx, hy, hz, hequal, htext.1 rfl, ?_⟩
  cases order with
  | lt => exact ⟨horder, hswap, (hint (-1000)).2⟩
  | eq => cases hsign
  | gt => cases hsign

end Number

end Radix
