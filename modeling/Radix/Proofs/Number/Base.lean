import Radix.Proofs.Number.Decimal

namespace Radix.Number

variable {base : Nat}

/-- The records of a change of base: none if there is nothing to change. -/
def conversionLog (source target : Nat) : List Record :=
  if source = target then [] else [conversionRecord source target]

@[simp] theorem conversionLog_self (base : Nat) : conversionLog base base = [] := if_pos rfl

theorem convert_eq {x : Number} (hx : x.WellFormed) (h : 1 < base) :
    x.convert base = ⟨.ok (ofInt base x.toInt), conversionLog x.base base⟩ := by
  by_cases hb : base = x.base
  · subst hb
    rw [convert, if_pos rfl, conversionLog_self, ← hx.eq_ofInt]
    rfl
  · have hpos : 0 < x.base := by
      have := hx.one_lt_base
      omega
    have htext : ofText base x.magnitudeText = .ok (ofInt base x.magnitude) := by
      rw [magnitudeText_eq hpos]
      exact ofText_toString h (x.magnitude : Int)
    have hlimbs : ofComputed base x.negative (Limbs.ofNat base x.magnitude) =
        .ok (ofInt base x.toInt) := by
      rw [ofComputed_eq h _ (Limbs.canonical_ofNat h _).limbs_lt, Limbs.value_ofNat h,
        ← toInt_eq_signed]
    rw [convert, if_neg hb, conversionLog, if_neg (Ne.symm hb)]
    simp [Calc.write, htext, hlimbs]

theorem reconcile_eq {a b : Number} (ha : 1 < a.base) (hb : b.WellFormed) :
    reconcile a b = ⟨.ok (ofInt a.base b.toInt), conversionLog b.base a.base⟩ := by
  by_cases hab : a.base = b.base
  · rw [reconcile, if_pos hab, hab, conversionLog_self, ← hb.eq_ofInt]
    rfl
  · rw [reconcile, if_neg hab, convert_eq hb ha]

theorem reconcile_of_base_eq {a b : Number} (h : a.base = b.base) :
    reconcile a b = ⟨.ok b, []⟩ := if_pos h

@[simp] theorem reconcile_ofInt (base : Nat) (m n : Int) :
    reconcile (ofInt base m) (ofInt base n) = ⟨.ok (ofInt base n), []⟩ := if_pos rfl

/-- An operation that begins by reconciling its operands is what it is for operands of one base,
after the conversion has been logged. -/
theorem eq_of_reconcile {α : Type} (op : Number → Number → Calc α)
    {f : Number → Number → Calc α} (hop : ∀ a b, op a b = reconcile a b >>= f a)
    {a b : Number} (ha : a.WellFormed) (hb : b.WellFormed) {outcome : Except Fault α} {log : List Record}
    (hsame : op (ofInt a.base a.toInt) (ofInt a.base b.toInt) = ⟨outcome, log⟩) :
    op a b = ⟨outcome, conversionLog b.base a.base ++ log⟩ := by
  rw [← ha.eq_ofInt, hop, reconcile_of_base_eq (base_ofInt a.base b.toInt).symm, Calc.ok_bind]
    at hsame
  rw [hop, reconcile_eq ha.one_lt_base hb, Calc.bind_ok, hsame]

theorem compare_eq {a b : Number} (ha : a.WellFormed) (hb : b.WellFormed) :
    compare a b =
      ⟨.ok (Ord.compare a.magnitude b.magnitude), conversionLog b.base a.base⟩ := by
  have hlimbs : Limbs.compare a.limbs (Limbs.ofNat a.base b.magnitude) =
      Ord.compare a.magnitude b.magnitude := by
    rw [ha.limbs_eq, Limbs.compare_ofNat ha.one_lt_base]
  rw [compare, reconcile_eq ha.one_lt_base hb]
  simp [hlimbs]

@[simp] theorem compare_ofInt (h : 1 < base) (m n : Int) :
    compare (ofInt base m) (ofInt base n) = ⟨.ok (Ord.compare m.natAbs n.natAbs), []⟩ := by
  rw [compare_eq (wellFormed_ofInt h m) (wellFormed_ofInt h n)]
  simp [h]

end Radix.Number
