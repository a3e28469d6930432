import Radix.Number.Order
import Radix.Proofs.Limbs.Canonical
import Radix.Proofs.Limbs.Sum

namespace Radix

namespace Calc

@[simp] theorem lift_ok {α : Type} (a : α) :
    (liftM (Except.ok a : Except Fault α) : Calc α) = ⟨.ok a, []⟩ := rfl

@[simp] theorem lift_error {α : Type} (e : Fault) :
    (liftM (Except.error e : Except Fault α) : Calc α) = ⟨.error e, []⟩ := rfl

theorem ok_bind {α β : Type} (a : α) (f : α → Calc β) : ((⟨.ok a, []⟩ : Calc α) >>= f) = f a := rfl

theorem outcome_bind {α β : Type} (x : Calc α) (f : α → Calc β) :
    (x >>= f).outcome = x.outcome >>= fun a => (f a).outcome := by
  obtain ⟨outcome, log⟩ := x
  cases outcome <;> rfl

theorem exists_of_bind_eq_ok {α β : Type} {x : Calc α} {f : α → Calc β} {b : β}
    (h : (x >>= f).outcome = .ok b) : ∃ a, x.outcome = .ok a ∧ (f a).outcome = .ok b := by
  obtain ⟨e | a, log⟩ := x
  · cases h
  · exact ⟨a, rfl, h⟩

@[simp] theorem ofLimbs?_some {α : Type} (a : α) : ofLimbs? (some a) = ⟨.ok a, []⟩ := rfl

end Calc

namespace Number

variable {base : Nat}

def signed (negative : Bool) (n : Nat) : Int := if negative then -(n : Int) else n

@[simp] theorem natAbs_signed (negative : Bool) (n : Nat) : (signed negative n).natAbs = n := by
  cases negative <;> simp [signed]

theorem signed_natAbs (n : Int) : signed (n < 0) n.natAbs = n := by
  by_cases hn : n < 0
  · simp only [signed, hn, decide_true, if_true]
    omega
  · simp only [signed, hn, decide_false, Bool.false_eq_true, if_false]
    omega

theorem signed_neg_iff (negative : Bool) (n : Nat) :
    signed negative n < 0 ↔ negative = true ∧ n ≠ 0 := by
  cases negative
  · simp [signed]
  · simp only [signed, if_true, true_and]
    omega

@[simp] theorem base_ofInt (base : Nat) (n : Int) : (ofInt base n).base = base := rfl

@[simp] theorem limbs_ofInt (base : Nat) (n : Int) :
    (ofInt base n).limbs = Limbs.ofNat base n.natAbs := rfl

@[simp] theorem negative_ofInt (base : Nat) (n : Int) : (ofInt base n).negative = decide (n < 0) :=
  rfl

@[simp] theorem magnitude_ofInt (h : 1 < base) (n : Int) : (ofInt base n).magnitude = n.natAbs :=
  Limbs.value_ofNat h n.natAbs

@[simp] theorem toInt_ofInt (h : 1 < base) (n : Int) : (ofInt base n).toInt = n := by
  have hs := signed_natAbs n
  simpa [toInt, signed, magnitude_ofInt h] using hs

theorem wellFormed_ofInt (h : 1 < base) (n : Int) : (ofInt base n).WellFormed where
  one_lt_base := h
  canonical := Limbs.canonical_ofNat h n.natAbs
  zero_unsigned hz := by
    have hn : n = 0 := by simpa [h] using hz
    simp [hn]

theorem ofInt_signed (h : 1 < base) (negative : Bool) (n : Nat) :
    ofInt base (signed negative n) =
      ⟨base, Limbs.ofNat base n, negative && Limbs.ofNat base n ≠ [0]⟩ := by
  have hneg : decide (signed negative n < 0) = (negative && Limbs.ofNat base n ≠ [0]) := by
    rw [Bool.eq_iff_iff]
    simp [signed_neg_iff, h]
  rw [← hneg, ofInt, natAbs_signed]

theorem toInt_eq_signed (x : Number) : x.toInt = signed x.negative x.magnitude := rfl

@[simp] theorem natAbs_toInt (x : Number) : x.toInt.natAbs = x.magnitude := by
  rw [toInt_eq_signed, natAbs_signed]

theorem WellFormed.eq_ofInt {x : Number} (hx : x.WellFormed) : x = ofInt x.base x.toInt := by
  rw [toInt_eq_signed, ofInt_signed hx.one_lt_base, magnitude,
    ← hx.canonical.eq_ofNat hx.one_lt_base]
  obtain ⟨base, limbs, negative⟩ := x
  have hz : limbs = [0] → negative = false := hx.zero_unsigned
  by_cases hl : limbs = [0]
  · simp [hl, hz hl]
  · simp [hl]

theorem WellFormed.limbs_eq {x : Number} (hx : x.WellFormed) :
    x.limbs = Limbs.ofNat x.base x.magnitude :=
  hx.canonical.eq_ofNat hx.one_lt_base

theorem WellFormed.negative_iff {x : Number} (hx : x.WellFormed) : x.negative = true ↔ x.toInt < 0 := by
  conv_lhs => rw [hx.eq_ofInt]
  simp

theorem WellFormed.negative_eq {x : Number} (hx : x.WellFormed) :
    x.negative = decide (x.toInt < 0) := by
  rw [Bool.eq_iff_iff, decide_eq_true_iff, hx.negative_iff]

theorem isZero_ofInt (h : 1 < base) (n : Int) : (ofInt base n).isZero = decide (n = 0) := by
  simp [isZero, h]

theorem isOne_ofInt (h : 1 < base) (n : Int) : (ofInt base n).isOne = decide (n.natAbs = 1) := by
  simp [isOne, h]

theorem checkBase_natCast (h : 1 < base) : checkBase (.int base) = .ok base := by
  have hle : ¬ (base : Int) ≤ 1 := by omega
  simp [checkBase, hle]

theorem one_lt_of_checkBase {v : Value} (h : checkBase v = .ok base) : 1 < base := by
  cases v with
  | int n =>
    rw [checkBase] at h
    split at h
    · cases h
    · cases h
      omega
  | _ => cases h

theorem trim_map_ofNat (xs : List Nat) :
    Limbs.trim (xs.map Int.ofNat) = (Limbs.trim xs).map Int.ofNat := by
  have hdrop : Limbs.dropHighZeros (xs.map Int.ofNat) =
      (Limbs.dropHighZeros xs).map Int.ofNat := by
    induction xs with
    | nil => rfl
    | cons x xs ih =>
      rw [List.map_cons, Limbs.dropHighZeros, ih, Limbs.dropHighZeros]
      cases Limbs.dropHighZeros xs with
      | nil => by_cases hx : x = 0 <;> simp [hx]
      | cons y ys => rfl
  rw [Limbs.trim, hdrop, Limbs.trim]
  cases Limbs.dropHighZeros xs <;> rfl

theorem ofComputed_eq (h : 1 < base) (negative : Bool) {limbs : List Nat}
    (hl : ∀ x ∈ limbs, x < base) :
    ofComputed base negative limbs = .ok (ofInt base (signed negative (Limbs.value base limbs))) := by
  have hcanonical := Limbs.canonical_ofNat h (Limbs.value base limbs)
  have hfind : ((Limbs.ofNat base (Limbs.value base limbs)).map Int.ofNat).find?
      (fun limb : Int => decide (limb < 0 ∨ base ≤ limb)) = none :=
    Limbs.find?_outside_eq_none_iff.2 (Limbs.inRange_map_ofNat hcanonical.limbs_lt)
  rw [ofComputed, ofLimbs, trim_map_ofNat, Limbs.trim_eq_ofNat h hl, hfind, ofInt_signed h]
  simp [Function.comp_def]

theorem ofLimbs_eq (h : 1 < base) (negative : Bool) {limbs : List Int}
    (hl : Limbs.InRange base limbs) :
    ofLimbs base negative limbs =
      .ok (ofInt base (signed negative (Limbs.value (base : Int) limbs).toNat)) := by
  obtain ⟨ns, rfl, hns⟩ := hl.exists_nat
  rw [Limbs.value_map_ofNat, Int.toNat_natCast]
  exact ofComputed_eq h negative hns

/-- Of given limbs the lowest outside the base is refused, though high zeros are dropped first. -/
theorem ofLimbs_of_lowestOutside (h : 1 < base) (negative : Bool) {limbs : List Int} {limb : Int}
    (hlimb : Limbs.LowestOutside base limbs limb) :
    ofLimbs base negative limbs = .error (.told (.limbOutside limb base)) := by
  have hzero : decide ((0 : Int) < 0 ∨ (base : Int) ≤ 0) = false := decide_eq_false (by omega)
  rw [ofLimbs, Limbs.find?_trim hzero, Limbs.find?_outside_eq_some_iff.2 hlimb]

theorem ofLimbs_ok_or_error (h : 1 < base) (negative : Bool) (limbs : List Int) :
    (Limbs.InRange base limbs ∧ ofLimbs base negative limbs =
        .ok (ofInt base (signed negative (Limbs.value (base : Int) limbs).toNat))) ∨
      ∃ limb, Limbs.LowestOutside base limbs limb ∧
        ofLimbs base negative limbs = .error (.told (.limbOutside limb base)) := by
  cases hf : limbs.find? fun limb : Int => decide (limb < 0 ∨ base ≤ limb) with
  | none =>
    have hrange := Limbs.find?_outside_eq_none_iff.1 hf
    exact Or.inl ⟨hrange, ofLimbs_eq h negative hrange⟩
  | some limb =>
    have hlimb := Limbs.find?_outside_eq_some_iff.1 hf
    exact Or.inr ⟨limb, hlimb, ofLimbs_of_lowestOutside h negative hlimb⟩

@[simp] theorem zero_eq (h : 1 < base) : zero base = .ok (ofInt base 0) := by
  rw [zero, ofComputed_eq h false (by simpa using by omega)]
  simp [signed]

@[simp] theorem one_eq (h : 1 < base) : one base = .ok (ofInt base 1) := by
  rw [one, ofComputed_eq h false (by simpa using h)]
  simp [signed]

theorem withSign_eq {x : Number} (hx : x.WellFormed) (negative : Bool) :
    x.withSign negative = .ok (ofInt x.base (signed negative x.magnitude)) :=
  ofComputed_eq hx.one_lt_base negative hx.canonical.limbs_lt

theorem abs_eq {x : Number} (hx : x.WellFormed) : x.abs = .ok (ofInt x.base x.magnitude) := by
  rw [abs, withSign_eq hx]
  by_cases hn : x.negative = true
  · rw [if_pos hn]
    simp [signed]
  · rw [if_neg hn]
    conv_lhs => rw [hx.eq_ofInt, toInt_eq_signed]
    simp [signed, hn]

theorem negate_eq {x : Number} (hx : x.WellFormed) : x.negate = .ok (ofInt x.base (-x.toInt)) := by
  have hneg : signed (!x.negative) x.magnitude = -x.toInt := by
    rw [toInt_eq_signed]
    cases x.negative <;> simp [signed]
  rw [negate, withSign_eq hx, hneg]

end Number

end Radix
