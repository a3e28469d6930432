import Radix.Proofs.Number.Reachable

namespace Radix.Number

variable {base : Nat}

theorem perform_value (h : 1 < base) (v : Value) :
    (Construction.value v).perform (.int base) = ofValue base v := by
  unfold Construction.perform
  rw [checkBase_natCast h]
  rfl

theorem perform_value_int (h : 1 < base) (n : Int) :
    (Construction.value (.int n)).perform (.int base) = .ok (ofInt base n) :=
  perform_value h (.int n)

theorem perform_value_text (h : 1 < base) (n : Int) :
    (Construction.value (.text (toString n))).perform (.int base) = .ok (ofInt base n) := by
  rw [perform_value h]
  exact ofText_toString h n

theorem perform_convert {x : Number} (hx : x.WellFormed) (h : 1 < base) :
    ((Unary.convert (.int base)).perform x).outcome = .ok (ofInt base x.toInt) := by
  have hconvert := convert_eq hx h
  simp only [Unary.perform, checkBase_natCast h, Calc.lift_ok, Calc.ok_bind, hconvert]

/-- An integer and its decimal text make the same number, whose integer it is. A number's text is
that of its integer, and the integer makes the number again. -/
theorem integer_and_text_agree (h : 1 < base) :
    (∀ n : Int, ∃ x, (Construction.value (.int n)).perform (.int base) = .ok x ∧
      (Construction.value (.text (toString n))).perform (.int base) = .ok x ∧
      x.base = base ∧ x.WellFormed ∧ x.toInt = n) ∧
    ∀ x, x.WellFormed → x.text = toString x.toInt ∧
      (Construction.value (.int x.toInt)).perform (.int x.base) = .ok x := by
  constructor
  · intro n
    have hint := perform_value_int h n
    have htext := perform_value_text h n
    exact ⟨ofInt base n, hint, htext, base_ofInt base n, wellFormed_ofInt h n, toInt_ofInt h n⟩
  · intro x hx
    have hint := perform_value_int hx.one_lt_base x.toInt
    rw [← hx.eq_ofInt] at hint
    exact ⟨text_eq hx, hint⟩

theorem integer_and_text_agree_wide :
    1 < 2 ^ 64 ∧ (⟨2 ^ 64, [5, 3], true⟩ : Number).WellFormed ∧
    (Construction.value (.text "-55340232221128654853")).perform (.int (2 ^ 64 : Nat)) =
      .ok ⟨2 ^ 64, [5, 3], true⟩ ∧
    (⟨2 ^ 64, [5, 3], true⟩ : Number).text = "-55340232221128654853" := by
  have h : 1 < 2 ^ 64 := by decide
  obtain ⟨hmake, hback⟩ := integer_and_text_agree h
  obtain ⟨x, hint, htext, -, hx, hvalue⟩ := hmake (-55340232221128654853)
  have hlimbs : ofInt (2 ^ 64) (-55340232221128654853) = ⟨2 ^ 64, [5, 3], true⟩ := by decide +kernel
  have hmade := perform_value_int h (-55340232221128654853)
  rw [hlimbs] at hmade
  obtain rfl := Except.ok.inj (hint.symm.trans hmade)
  have hdecimal : toString (-55340232221128654853 : Int) = "-55340232221128654853" := by decide
  rw [hdecimal] at htext
  refine ⟨h, hx, htext, ?_⟩
  rw [(hback _ hx).1, hvalue, hdecimal]

/-- A change of base keeps the value. A second change makes of the result what it makes of the
number itself, and the change back gives the number itself. -/
theorem convert_convert {x : Number} (hx : x.WellFormed) (h : 1 < base) :
    ∃ y, ((Unary.convert (.int base)).perform x).outcome = .ok y ∧
      y.base = base ∧ y.WellFormed ∧ y.toInt = x.toInt ∧
      (∀ target : Nat, 1 < target → ∃ z, ((Unary.convert (.int target)).perform x).outcome = .ok z ∧
        ((Unary.convert (.int target)).perform y).outcome = .ok z) ∧
      ((Unary.convert (.int x.base)).perform y).outcome = .ok x := by
  have hy := wellFormed_ofInt h x.toInt
  have hvalue := toInt_ofInt h x.toInt
  refine ⟨ofInt base x.toInt, perform_convert hx h, base_ofInt base x.toInt, hy, hvalue, ?_, ?_⟩
  · intro target ht
    have hagain := perform_convert hy ht
    rw [hvalue] at hagain
    exact ⟨ofInt target x.toInt, perform_convert hx ht, hagain⟩
  · have hback := perform_convert hy hx.one_lt_base
    rw [hvalue, ← hx.eq_ofInt] at hback
    exact hback

theorem convert_convert_three :
    (⟨256, [232, 3], true⟩ : Number).WellFormed ∧
    ∃ y, ((Unary.convert (.int (2 : Nat))).perform ⟨256, [232, 3], true⟩).outcome = .ok y ∧
      y.WellFormed ∧ y.limbs = [0, 0, 0, 1, 0, 1, 1, 1, 1, 1] ∧
      ((Unary.convert (.int (11 : Nat))).perform y).outcome = .ok ⟨11, [10, 2, 8], true⟩ ∧
      ((Unary.convert (.int (256 : Nat))).perform y).outcome = .ok ⟨256, [232, 3], true⟩ := by
  have hbytes : ofInt 256 (-1000) = ⟨256, [232, 3], true⟩ := by decide +kernel
  have hbits : ofInt 2 (-1000) = ⟨2, [0, 0, 0, 1, 0, 1, 1, 1, 1, 1], true⟩ := by decide +kernel
  have heleven : ofInt 11 (-1000) = ⟨11, [10, 2, 8], true⟩ := by decide +kernel
  have hx := wellFormed_ofInt (by decide : 1 < 256) (-1000)
  have hvalue := toInt_ofInt (by decide : 1 < 256) (-1000)
  obtain ⟨y, hy, -, hformed, -, hagain, hback⟩ := convert_convert hx (by decide : 1 < 2)
  obtain ⟨z, hz, hyz⟩ := hagain 11 (by decide)
  have hy' := perform_convert hx (by decide : 1 < 2)
  have hz' := perform_convert hx (by decide : 1 < 11)
  rw [hvalue, hbits] at hy'
  rw [hvalue, heleven] at hz'
  obtain rfl := Except.ok.inj (hy.symm.trans hy')
  obtain rfl := Except.ok.inj (hz.symm.trans hz')
  rw [← hbytes]
  exact ⟨hx, _, hy, hformed, rfl, hyz, hback⟩

end Radix.Number
