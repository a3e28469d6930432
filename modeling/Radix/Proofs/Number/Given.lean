import Radix.Proofs.Number.Exactness
import Radix.Proofs.Number.Reachable

namespace Radix.Number

variable {base : Nat}

theorem perform_limbs (h : 1 < base) (negative : Bool) (limbs : List Int) :
    (Construction.limbs limbs negative).perform (.int base) = ofLimbs base negative limbs := by
  unfold Construction.perform
  rw [checkBase_natCast h]
  rfl

theorem exists_ofLimbs_eq_error_iff (h : 1 < base) (negative : Bool) (limbs : List Int) :
    (∃ f, ofLimbs base negative limbs = .error f) ↔ ∃ limb ∈ limbs, ¬ (0 ≤ limb ∧ limb < base) := by
  have hrange : ¬ Limbs.InRange base limbs ↔ ∃ limb ∈ limbs, ¬ (0 ≤ limb ∧ limb < base) := by
    simp only [Limbs.InRange, not_forall, exists_prop]
  rw [← hrange]
  constructor
  · rintro ⟨f, hf⟩ hlimbs
    rw [ofLimbs_eq h negative hlimbs] at hf
    cases hf
  · intro hlimbs
    obtain ⟨limb, hlimb⟩ := Limbs.exists_lowestOutside_iff.2 hlimbs
    exact ⟨_, ofLimbs_of_lowestOutside h negative hlimb⟩

theorem ofLimbs_eq_error_iff (h : 1 < base) (negative : Bool) (limbs : List Int) (f : Fault) :
    ofLimbs base negative limbs = .error f ↔
      ∃ limb, Limbs.LowestOutside base limbs limb ∧ f = .told (.limbOutside limb base) := by
  constructor
  · intro hf
    rcases ofLimbs_ok_or_error h negative limbs with ⟨-, hok⟩ | ⟨limb, hlimb, herror⟩
    · rw [hok] at hf
      cases hf
    · rw [herror] at hf
      exact ⟨limb, hlimb, (Except.error.inj hf).symm⟩
  · rintro ⟨limb, hlimb, rfl⟩
    exact ofLimbs_of_lowestOutside h negative hlimb

theorem told_limbOutside (limb : Int) (base : Nat) :
    Fault.told (.limbOutside limb base) =
      if limb.natAbs < 10 ^ Text.digitLimit ∧ base < 10 ^ Text.digitLimit then
        .limbOutside limb base
      else .numeralTooLong := by
  rw [Fault.told]
  simp [Fault.numerals, Text.isWritable_iff]

theorem eq_told_limbOutside_iff (limb : Int) (base : Nat) (f : Fault) :
    f = .told (.limbOutside limb base) ↔ f.toClass = .wrongValue ∧
      if limb.natAbs < 10 ^ Text.digitLimit ∧ base < 10 ^ Text.digitLimit then
        f = .limbOutside limb base ∧ f.message =
          "Limb " ++ toString limb ++ " outside [0, " ++ toString base ++ ")"
      else f = .numeralTooLong := by
  rw [told_limbOutside]
  split
  · constructor
    · rintro rfl
      exact ⟨rfl, rfl, rfl⟩
    · rintro ⟨-, hf, -⟩
      exact hf
  · constructor
    · rintro rfl
      exact ⟨rfl, rfl⟩
    · rintro ⟨-, hf⟩
      exact hf

theorem signed_toNat {v : Int} (hv : 0 ≤ v) (negative : Bool) :
    signed negative v.toNat = (if negative then -1 else 1) * v := by
  rw [signed, Int.toNat_of_nonneg hv]
  cases negative <;> simp

theorem ofLimbs_denotes (h : 1 < base) (negative : Bool) {limbs : List Int}
    (hlimbs : Limbs.InRange base limbs) :
    ∃ x, ofLimbs base negative limbs = .ok x ∧
      x.Denotes base ((if negative then -1 else 1) * Limbs.value (base : Int) limbs) := by
  have hvalue := Limbs.value_nonneg (by omega : 0 < (base : Int)) hlimbs.nonneg
  rw [← signed_toNat hvalue]
  exact ⟨_, ofLimbs_eq h negative hlimbs, denotes_ofInt h _⟩

theorem ofLimbs_eq_ofLimbs_iff (h : 1 < base) (negative : Bool) {xs ys : List Int}
    (hxs : Limbs.InRange base xs) (hys : Limbs.InRange base ys) :
    ofLimbs base negative xs = ofLimbs base negative ys ↔
      Limbs.value (base : Int) xs = Limbs.value (base : Int) ys := by
  obtain ⟨x, hx, hdenotes⟩ := ofLimbs_denotes h negative hxs
  obtain ⟨y, hy, hdenotes'⟩ := ofLimbs_denotes h negative hys
  have hsign : (if negative then -1 else 1 : Int) ≠ 0 := by cases negative <;> decide
  rw [hx, hy, Except.ok.injEq]
  constructor
  · rintro rfl
    exact mul_left_cancel₀ hsign (hdenotes.toInt_eq.symm.trans hdenotes'.toInt_eq)
  · intro hvalue
    rw [hdenotes.eq_ofInt, hdenotes'.eq_ofInt, hvalue]

theorem ofLimbs_integers {x : Number} (hx : x.WellFormed) :
    ofLimbs x.base x.negative x.integers = .ok x := by
  have hsame := withSign_eq hx x.negative
  rw [← toInt_eq_signed, ← hx.eq_ofInt] at hsame
  exact hsame

theorem Denotes.negative_iff {x : Number} {v : Int} {negative : Bool} (hv : 0 ≤ v)
    (hx : x.Denotes base ((if negative then -1 else 1) * v)) :
    x.negative = true ↔ negative = true ∧ x.toInt ≠ 0 := by
  rw [hx.wellFormed.negative_iff, hx.toInt_eq]
  cases negative with
  | false => simpa using hv
  | true =>
    rw [if_pos rfl, neg_one_mul, and_iff_right rfl]
    omega

/-- Limbs of any length, with any high zeros or none at all, are refused if and only if one of them
is outside the base. The lowest such limb is named, unless it or the base is too long to be written.
Limbs in range make the number of their sum: two lists make one number exactly if their sums are the
same, and a number's own limbs make it again. -/
theorem given_limbs_decided (h : 1 < base) (negative : Bool) :
    (∀ limbs, ((∃ f, (Construction.limbs limbs negative).perform (.int base) = .error f) ↔
        ∃ limb ∈ limbs, ¬ (0 ≤ limb ∧ limb < base)) ∧
      ∀ f, (Construction.limbs limbs negative).perform (.int base) = .error f ↔
        ∃ limb, Limbs.LowestOutside base limbs limb ∧ f.toClass = .wrongValue ∧
          if limb.natAbs < 10 ^ Text.digitLimit ∧ base < 10 ^ Text.digitLimit then
            f = .limbOutside limb base ∧ f.message =
              "Limb " ++ toString limb ++ " outside [0, " ++ toString base ++ ")"
          else f = .numeralTooLong) ∧
    (∀ limbs, Limbs.InRange base limbs →
      ∃ x, (Construction.limbs limbs negative).perform (.int base) = .ok x ∧
        x.Denotes base ((if negative then -1 else 1) *
          ∑ i : Fin limbs.length, limbs[i] * (base : Int) ^ (i : Nat)) ∧
        (x.negative = true ↔ negative = true ∧ x.toInt ≠ 0)) ∧
    (∀ xs ys, Limbs.InRange base xs → Limbs.InRange base ys →
      ((Construction.limbs xs negative).perform (.int base) =
          (Construction.limbs ys negative).perform (.int base) ↔
        ∑ i : Fin xs.length, xs[i] * (base : Int) ^ (i : Nat) =
          ∑ i : Fin ys.length, ys[i] * (base : Int) ^ (i : Nat))) ∧
    ∀ x, x.WellFormed →
      (Construction.limbs x.integers x.negative).perform (.int x.base) = .ok x := by
  simp only [perform_limbs h, ← Limbs.value_eq_sum]
  refine ⟨fun limbs => ⟨?_, fun f => ?_⟩, ?_, ?_, ?_⟩
  · exact exists_ofLimbs_eq_error_iff h negative limbs
  · simp only [ofLimbs_eq_error_iff h, eq_told_limbOutside_iff]
  · intro limbs hlimbs
    obtain ⟨x, hx, hdenotes⟩ := ofLimbs_denotes h negative hlimbs
    have hvalue := Limbs.value_nonneg (by omega : 0 < (base : Int)) hlimbs.nonneg
    exact ⟨x, hx, hdenotes, hdenotes.negative_iff hvalue⟩
  · intro xs ys hxs hys
    exact ofLimbs_eq_ofLimbs_iff h negative hxs hys
  · intro x hx
    rw [perform_limbs hx.one_lt_base]
    exact ofLimbs_integers hx

theorem given_limbs_decided_ten :
    1 < 10 ∧
    (Construction.limbs [7, 10, -1, 0] true).perform (.int (10 : Nat)) =
      .error (.limbOutside 10 10) ∧
    (Fault.limbOutside 10 10).message = "Limb 10 outside [0, 10)" ∧
    (Construction.limbs [4, 2, 0, 0] true).perform (.int (10 : Nat)) = .ok ⟨10, [4, 2], true⟩ ∧
    (Construction.limbs [4, 2] true).perform (.int (10 : Nat)) = .ok ⟨10, [4, 2], true⟩ ∧
    (Construction.limbs [] true).perform (.int (10 : Nat)) = .ok ⟨10, [0], false⟩ ∧
    (Construction.limbs [] true).perform (.int (10 : Nat)) =
      (Construction.limbs [0, 0] true).perform (.int (10 : Nat)) ∧
    (Construction.limbs [3, (10 ^ Text.digitLimit : Nat)] true).perform (.int (10 : Nat)) =
      .error .numeralTooLong := by
  have hbase : 1 < 10 := by decide
  have hshort : 10 < 10 ^ Text.digitLimit := lt_self_pow₀ (by decide) (by decide)
  obtain ⟨hrefused, haccepted, hsame, hback⟩ := given_limbs_decided hbase true
  have hten : Limbs.LowestOutside (10 : Nat) [7, 10, -1, 0] 10 :=
    ⟨by decide, [7], [-1, 0], rfl, by simp⟩
  have hlong : Limbs.LowestOutside (10 : Nat) [3, (10 ^ Text.digitLimit : Nat)]
      (10 ^ Text.digitLimit : Nat) :=
    ⟨Or.inr (Int.ofNat_le.2 hshort.le), [3], [], rfl, by simp⟩
  obtain ⟨x, hx, hdenotes, -⟩ := haccepted [4, 2, 0, 0] (by simp)
  obtain ⟨zero, hzero, hdenotes', -⟩ := haccepted [] (by simp)
  have hnumber : x = ⟨10, [4, 2], true⟩ := hdenotes.eq_ofInt.trans (by decide +kernel)
  have hunsigned : zero = ⟨10, [0], false⟩ := hdenotes'.eq_ofInt.trans (by decide +kernel)
  rw [hnumber] at hx hdenotes
  rw [hunsigned] at hzero
  refine ⟨hbase, ?_, rfl, hx, hback _ hdenotes.wellFormed, hzero, ?_, ?_⟩
  · apply ((hrefused _).2 _).2
    refine ⟨10, hten, rfl, ?_⟩
    rw [if_pos ⟨hshort, hshort⟩]
    exact ⟨rfl, rfl⟩
  · apply (hsame [] [0, 0] (by simp) (by simp)).2
    decide
  · have hunwritable : ¬ ((10 ^ Text.digitLimit : Nat) : Int).natAbs < 10 ^ Text.digitLimit := by
      rw [Int.natAbs_natCast]
      exact lt_irrefl _
    apply ((hrefused _).2 _).2
    refine ⟨_, hlong, rfl, ?_⟩
    rw [if_neg fun hwritable => hunwritable hwritable.1]

end Radix.Number
