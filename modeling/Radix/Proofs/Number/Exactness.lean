import Radix.Proofs.Limbs.Buffer
import Radix.Proofs.Limbs.Halving
import Radix.Proofs.Limbs.Totals
import Radix.Proofs.Number.Search

namespace Radix.Number

variable {base : Nat} {a b x : Number}

/-- The number of an integer in a base. -/
structure Denotes (x : Number) (base : Nat) (n : Int) : Prop where
  base_eq : x.base = base
  wellFormed : x.WellFormed
  toInt_eq : x.toInt = n

/-- Zero as it is always written: the single limb zero, without a sign. -/
def IsUnsignedZero (x : Number) : Prop := x.limbs = [0] ∧ x.negative = false

theorem denotes_ofInt (h : 1 < base) (n : Int) : (ofInt base n).Denotes base n :=
  ⟨base_ofInt base n, wellFormed_ofInt h n, toInt_ofInt h n⟩

theorem Denotes.of_eq (h : 1 < base) {n : Int} (hx : x = ofInt base n) : x.Denotes base n := by
  rw [hx]
  exact denotes_ofInt h n

theorem Denotes.eq_ofInt {n : Int} (hx : x.Denotes base n) : x = ofInt base n := by
  rw [hx.wellFormed.eq_ofInt, hx.base_eq, hx.toInt_eq]

theorem Denotes.isUnsignedZero {n : Int} (hx : x.Denotes base n) (hn : n = 0) :
    x.IsUnsignedZero := by
  rw [hx.eq_ofInt, hn]
  exact ⟨Limbs.ofNat_zero base, rfl⟩

/-- Sums and differences are exact, and leave an unsigned zero where the values cancel. -/
theorem sums_exact (ha : a.WellFormed) (hb : b.WellFormed) :
    (∃ s, (add a b).outcome = .ok s ∧ s.Denotes a.base (a.toInt + b.toInt) ∧
      (a.toInt = -b.toInt → s.IsUnsignedZero)) ∧
    ∃ d, (subtract a b).outcome = .ok d ∧ d.Denotes a.base (a.toInt - b.toInt) ∧
      (a.toInt = b.toInt → d.IsUnsignedZero) := by
  have hsum := denotes_ofInt ha.one_lt_base (a.toInt + b.toInt)
  have hdifference := denotes_ofInt ha.one_lt_base (a.toInt - b.toInt)
  constructor
  · refine ⟨_, by rw [add_eq ha hb], hsum, ?_⟩
    intro hcancel
    exact hsum.isUnsignedZero (by omega)
  · refine ⟨_, by rw [subtract_eq ha hb], hdifference, ?_⟩
    intro hcancel
    exact hdifference.isUnsignedZero (by omega)

theorem sums_exact_thousand :
    (⟨256, [232, 3], true⟩ : Number).WellFormed ∧ (⟨11, [10, 2, 8], false⟩ : Number).WellFormed ∧
    (add ⟨256, [232, 3], true⟩ ⟨11, [10, 2, 8], false⟩).outcome = .ok ⟨256, [0], false⟩ ∧
    (subtract ⟨256, [232, 3], true⟩ ⟨11, [10, 2, 8], false⟩).outcome =
      .ok ⟨256, [208, 7], true⟩ := by
  have ha : Denotes ⟨256, [232, 3], true⟩ 256 (-1000) := .of_eq (by decide) (by decide +kernel)
  have hb : Denotes ⟨11, [10, 2, 8], false⟩ 11 1000 := .of_eq (by decide) (by decide +kernel)
  obtain ⟨⟨s, hs, hsum, -⟩, d, hd, hdifference, -⟩ := sums_exact ha.wellFormed hb.wellFormed
  have hzero : s = ⟨256, [0], false⟩ := hsum.eq_ofInt.trans (by decide +kernel)
  have hdouble : d = ⟨256, [208, 7], true⟩ := hdifference.eq_ofInt.trans (by decide +kernel)
  rw [hzero] at hs
  rw [hdouble] at hd
  exact ⟨ha.wellFormed, hb.wellFormed, hs, hd⟩

/-- Products are exact. The rows are added up in a buffer one limb longer than both factors
together, and no place outside it is read or written. -/
theorem product_exact (ha : a.WellFormed) (hb : b.WellFormed) :
    (∃ c, (multiply a b).outcome = .ok c ∧ c.Denotes a.base (a.toInt * b.toInt) ∧
      (a.toInt = 0 ∨ b.toInt = 0 → c.IsUnsignedZero)) ∧
    ∃ b', (reconcile a b).outcome = .ok b' ∧ b'.Denotes a.base b.toInt ∧
      ∃ buffer, Limbs.mul? a.base a.limbs b'.limbs = some buffer ∧
        (Limbs.sweep a.base a.limbs b'.limbs).outcome = some buffer ∧
        buffer.length = a.length + b'.length + 1 ∧
        ∀ access ∈ (Limbs.sweep a.base a.limbs b'.limbs).accesses,
          access.place < a.length + b'.length + 1 := by
  have h := ha.one_lt_base
  have hproduct := denotes_ofInt h (a.toInt * b.toInt)
  have hsame := denotes_ofInt h b.toInt
  constructor
  · refine ⟨_, by rw [multiply_eq ha hb], hproduct, ?_⟩
    intro hzero
    exact hproduct.isUnsignedZero (mul_eq_zero.2 hzero)
  · refine ⟨_, by rw [reconcile_eq h hb], hsame, ?_⟩
    obtain ⟨buffer, hbuffer, hlength, hwithin⟩ := Limbs.exists_sweep h ha.canonical.limbs_lt
      hsame.wellFormed.canonical.limbs_lt
    have hrows := (Limbs.sweep_outcome a.limbs (ofInt a.base b.toInt).limbs).symm.trans hbuffer
    exact ⟨buffer, hrows, hbuffer, hlength, hwithin⟩

theorem product_exact_nines :
    (⟨10, [9, 9], false⟩ : Number).WellFormed ∧ (⟨16, [3, 6], true⟩ : Number).WellFormed ∧
    (multiply ⟨10, [9, 9], false⟩ ⟨16, [3, 6], true⟩).outcome = .ok ⟨10, [1, 0, 8, 9], true⟩ ∧
    (Limbs.sweep 10 [9, 9] [9, 9]).outcome = some [1, 0, 8, 9, 0] ∧
    (Limbs.sweep 10 [9, 9] [9, 9]).accesses.map Limbs.Access.place = [0, 1, 2, 1, 2, 3] ∧
    ∀ access ∈ (Limbs.sweep 10 [9, 9] [9, 9]).accesses, access.place < 5 := by
  have ha : Denotes ⟨10, [9, 9], false⟩ 10 99 := .of_eq (by decide) (by decide +kernel)
  have hb : Denotes ⟨16, [3, 6], true⟩ 16 (-99) := .of_eq (by decide) (by decide +kernel)
  obtain ⟨⟨c, hc, hproduct, -⟩, b', -, hsame, buffer, hrows, hbuffer, -, hwithin⟩ :=
    product_exact ha.wellFormed hb.wellFormed
  have hnumber : c = ⟨10, [1, 0, 8, 9], true⟩ := hproduct.eq_ofInt.trans (by decide +kernel)
  have hfactor : b' = ⟨10, [9, 9], true⟩ := hsame.eq_ofInt.trans (by decide +kernel)
  rw [hnumber] at hc
  rw [hfactor] at hrows hbuffer hwithin
  obtain rfl : [1, 0, 8, 9, 0] = buffer := Option.some.inj (Eq.trans (by decide +kernel) hrows)
  exact ⟨ha.wellFormed, hb.wellFormed, hc, hbuffer, by cbv, hwithin⟩

/-- While a product of numbers of one base is formed, each total from the carry and the limb that the
totals before it left, no total exceeds the square of the base less one, and carry and limbs stay
below the base. So a base whose square is at most `2 ^ 63` needs no more than a signed 64-bit word,
and the default base is one. -/
theorem product_totals_bounded (ha : a.WellFormed) (hb : b.WellFormed) (hbase : a.base = b.base) :
    (∃ buffer, (multiply a b).outcome = ofComputed a.base (a.negative != b.negative) buffer ∧
      (Limbs.Register.start a.limbs b.limbs).Accounts a.base
        (Limbs.sweep a.base a.limbs b.limbs).accesses ∧
      (Limbs.registers a.base a.limbs b.limbs).getLast? = some ⟨0, buffer⟩) ∧
    (∀ access ∈ (Limbs.sweep a.base a.limbs b.limbs).accesses, ∃ total,
      access.total? = some total ∧ total ≤ a.base ^ 2 - 1 ∧
      (a.base ^ 2 ≤ 2 ^ 63 → total ≤ 2 ^ 63 - 1)) ∧
    (∀ r ∈ Limbs.registers a.base a.limbs b.limbs,
      r.carry ≤ a.base - 1 ∧ ∀ limb ∈ r.buffer, limb < a.base) ∧
    defaultBase ^ 2 ≤ 2 ^ 63 := by
  obtain ⟨buffer, hbuffer, haccounts, hlast, htotals, hregisters⟩ :=
    Limbs.exists_registers ha.one_lt_base ha.canonical.limbs_lt (hbase ▸ hb.canonical.limbs_lt)
  refine ⟨⟨buffer, ?_, haccounts, hlast⟩, ?_, ?_, by decide⟩
  · rw [multiply, reconcile_of_base_eq hbase, Calc.ok_bind, hbuffer, Calc.ofLimbs?_some,
      Calc.ok_bind]
    rfl
  · intro access haccess
    obtain ⟨total, htotal, hlt⟩ := htotals access haccess
    exact ⟨total, htotal, by omega, by omega⟩
  · intro r hr
    have hfits := hregisters r hr
    exact ⟨Nat.le_sub_one_of_lt hfits.carry_lt, hfits.limbs_lt⟩

theorem product_totals_bounded_default :
    (⟨defaultBase, [3037000498, 3037000498, 3037000498], false⟩ : Number).WellFormed ∧
    (Limbs.sweep defaultBase [3037000498, 3037000498, 3037000498]
      [3037000498, 3037000498, 3037000498]).accesses.map Limbs.Access.total? =
      [some 9223372024852248004, some 9223372027889248501, some 9223372027889248501,
        some 3037000497, some 9223372027889248502, some 9223372030926249000,
        some 9223372030926248999, some 3037000498, some 9223372027889248502,
        some 9223372030926248999, some 9223372030926249000, some 3037000498] ∧
    defaultBase ^ 2 - 1 = 9223372030926249000 ∧
    ∀ access ∈ (Limbs.sweep defaultBase [3037000498, 3037000498, 3037000498]
      [3037000498, 3037000498, 3037000498]).accesses,
      ∃ total, access.total? = some total ∧ total ≤ 2 ^ 63 - 1 := by
  have ha : (⟨defaultBase, [3037000498, 3037000498, 3037000498], false⟩ : Number).WellFormed :=
    ⟨by decide, ⟨by decide, by decide, by decide⟩, by decide⟩
  obtain ⟨-, htotals, -, hdefault⟩ := product_totals_bounded ha ha rfl
  refine ⟨ha, by cbv, by decide, ?_⟩
  intro access haccess
  obtain ⟨total, htotal, -, hword⟩ := htotals access haccess
  exact ⟨total, htotal, hword hdefault⟩

def repeatedProduct (a : Number) : Nat → Calc Number
  | 0 => liftM (one a.base)
  | n + 1 => do
    let product ← repeatedProduct a n
    multiply product a

theorem repeatedProduct_eq (ha : a.WellFormed) (n : Nat) :
    repeatedProduct a n = ⟨.ok (ofInt a.base (a.toInt ^ n)), []⟩ := by
  induction n with
  | zero => rw [repeatedProduct, one_eq ha.one_lt_base, Calc.lift_ok, pow_zero]
  | succ n ih =>
    have hproduct := multiply_ofInt ha.one_lt_base (a.toInt ^ n) a.toInt
    rw [← ha.eq_ofInt] at hproduct
    rw [repeatedProduct, ih, Calc.ok_bind, hproduct, ← pow_succ]

/-- A power by squaring is one, multiplied by the number as often as the exponent says, and not at
all for an exponent below zero. So the power zero is one, also of zero. -/
theorem power_exact (ha : a.WellFormed) (n : Int) :
    ∃ p, (power a n).outcome = .ok p ∧ (repeatedProduct a (max n 0).toNat).outcome = .ok p ∧
      p.Denotes a.base (if 0 ≤ n then a.toInt ^ n.toNat else 1) := by
  have hcount : (max n 0).toNat = n.toNat := by omega
  have hvalue : (if 0 ≤ n then a.toInt ^ n.toNat else 1) = a.toInt ^ n.toNat := by
    by_cases hn : 0 ≤ n
    · rw [if_pos hn]
    · rw [if_neg hn, Int.toNat_of_nonpos (by omega), pow_zero]
  refine ⟨_, by rw [power_eq ha], ?_, ?_⟩
  · rw [hcount, repeatedProduct_eq ha]
  · rw [hvalue]
    exact denotes_ofInt ha.one_lt_base (a.toInt ^ n.toNat)

theorem power_exact_thirteen :
    (⟨10, [3], true⟩ : Number).WellFormed ∧ (⟨10, [0], false⟩ : Number).WellFormed ∧
    (power ⟨10, [3], true⟩ 13).outcome = .ok ⟨10, [3, 2, 3, 4, 9, 5, 1], true⟩ ∧
    (repeatedProduct ⟨10, [3], true⟩ 13).outcome = .ok ⟨10, [3, 2, 3, 4, 9, 5, 1], true⟩ ∧
    (power ⟨10, [0], false⟩ (-1)).outcome = .ok ⟨10, [1], false⟩ := by
  have ha : Denotes ⟨10, [3], true⟩ 10 (-3) := .of_eq (by decide) (by decide +kernel)
  have hb : Denotes ⟨10, [0], false⟩ 10 0 := .of_eq (by decide) (by decide +kernel)
  obtain ⟨p, hp, hproduct, hpower⟩ := power_exact ha.wellFormed 13
  obtain ⟨q, hq, -, hone⟩ := power_exact hb.wellFormed (-1)
  rw [ha.toInt_eq] at hpower
  rw [hb.toInt_eq] at hone
  have hpn : p = ⟨10, [3, 2, 3, 4, 9, 5, 1], true⟩ := hpower.eq_ofInt.trans (by decide +kernel)
  have hqn : q = ⟨10, [1], false⟩ := hone.eq_ofInt.trans (by decide +kernel)
  rw [hpn] at hp hproduct
  rw [hqn] at hq
  exact ⟨ha.wellFormed, hb.wellFormed, hp, hproduct, hq⟩

/-- A half has the magnitude halved and rounded down, and keeps the sign unless it is zero. Its
limbs are what the searches find, each of which is exact. -/
theorem half_exact (ha : a.WellFormed) :
    (∃ h, a.halve = .ok h ∧ h.Denotes a.base (signed a.negative (a.magnitude / 2)) ∧
      h.magnitude = a.magnitude / 2 ∧ (1 < a.magnitude → h.negative = a.negative) ∧
      (a.magnitude ≤ 1 → h.IsUnsignedZero)) ∧
    a.halve = ofComputed a.base a.negative
      ((Limbs.searches a.base 0 a.limbs.reverse).1.map Limbs.LimbSearch.found).reverse ∧
    ∀ s ∈ (Limbs.searches a.base 0 a.limbs.reverse).1, s.Exact a.base := by
  have htdiv := tdiv_signed a.negative false a.magnitude 2
  rw [Bool.bne_false] at htdiv
  have hhalf : (ofInt a.base (signed a.negative (a.magnitude / 2))).Denotes a.base
      (signed a.negative (a.magnitude / 2)) := denotes_ofInt ha.one_lt_base _
  refine ⟨⟨_, ?_, hhalf, ?_, ?_, ?_⟩, ?_, ?_⟩
  · rw [halve_eq ha, ← htdiv]
    rfl
  · rw [← natAbs_toInt, hhalf.toInt_eq, natAbs_signed]
  · intro hlarge
    have hhalved : a.magnitude / 2 ≠ 0 := by omega
    rw [negative_ofInt, Bool.eq_iff_iff, decide_eq_true_iff, signed_neg_iff]
    exact and_iff_left hhalved
  · intro hsmall
    have hhalved : a.magnitude / 2 = 0 := by omega
    exact hhalf.isUnsignedZero (by simp [hhalved, signed])
  · rw [halve, Limbs.halve_eq_searches]
  · exact Limbs.exact_of_mem_searches (Nat.zero_le 1)
      fun x hx => ha.canonical.limbs_lt x (List.mem_reverse.1 hx)

theorem half_exact_seven :
    (⟨7, [3, 5, 1], true⟩ : Number).WellFormed ∧
    (⟨7, [3, 5, 1], true⟩ : Number).halve = .ok ⟨7, [1, 6], true⟩ ∧
    (Limbs.searches 7 0 [1, 5, 3]).1.map (fun s => (s.carried, s.found)) =
      [(0, 0), (1, 6), (0, 1)] ∧
    ∀ s ∈ (Limbs.searches 7 0 [1, 5, 3]).1, s.Exact 7 := by
  have ha : Denotes ⟨7, [3, 5, 1], true⟩ 7 (-87) := .of_eq (by decide) (by decide +kernel)
  obtain ⟨⟨h, hh, hhalf, -⟩, -, hsearches⟩ := half_exact ha.wellFormed
  have hnumber : h = ⟨7, [1, 6], true⟩ := hhalf.eq_ofInt.trans (by decide +kernel)
  rw [hnumber] at hh
  exact ⟨ha.wellFormed, hh, by cbv, hsearches⟩

theorem tdiv_eq_sign_mul (m n : Int) :
    m.tdiv n = m.sign * n.sign * (m.natAbs / n.natAbs : Nat) := by
  have hquotient := Int.sign_mul_natAbs (m.tdiv n)
  rw [Int.sign_tdiv, Int.natAbs_tdiv] at hquotient
  rw [← hquotient]
  by_cases hlt : m.natAbs < n.natAbs
  · have hzero : m.natAbs / n.natAbs = 0 := Nat.div_eq_of_lt hlt
    rw [if_pos hlt, hzero, Nat.cast_zero, mul_zero, zero_mul]
  · rw [if_neg hlt]
    rfl

/-- A quotient is refused exactly for a divisor zero, and is else the quotient of the magnitudes,
rounded down, with the product of the signs. The search for it, which magnitudes zero and one of the
divisor do without, ends with any fuel above the magnitude of the dividend. -/
theorem quotient_exact (ha : a.WellFormed) (hb : b.WellFormed) :
    ((divide a b).outcome = .error (.divisionByZero a) ↔ b.toInt = 0) ∧
    (b.toInt ≠ 0 → ∃ q, (divide a b).outcome = .ok q ∧
      q.Denotes a.base (a.toInt.sign * b.toInt.sign * (a.toInt.natAbs / b.toInt.natAbs : Nat)) ∧
      (a.toInt.natAbs < b.toInt.natAbs → q.IsUnsignedZero)) ∧
    (1 < b.toInt.natAbs → ∀ fuel, a.toInt.natAbs < fuel →
      (search (quotientStep (ofInt a.base a.toInt.natAbs) (ofInt a.base b.toInt.natAbs)) fuel
        ⟨ofInt a.base 0, ofInt a.base a.toInt.natAbs⟩).outcome =
      .ok (ofInt a.base (a.toInt.natAbs / b.toInt.natAbs : Nat))) := by
  have h := ha.one_lt_base
  have hquotient := denotes_ofInt h (a.toInt.tdiv b.toInt)
  refine ⟨?_, ?_, ?_⟩
  · rw [divide_eq ha hb]
    by_cases hzero : b.toInt = 0
    · simp [hzero]
    · simp [hzero]
  · intro hzero
    have hdivide : (divide a b).outcome = .ok (ofInt a.base (a.toInt.tdiv b.toInt)) := by
      rw [divide_eq ha hb, if_neg hzero]
    rw [tdiv_eq_sign_mul] at hdivide hquotient
    refine ⟨_, hdivide, hquotient, ?_⟩
    intro hlt
    exact hquotient.isUnsignedZero (by rw [Nat.div_eq_of_lt hlt, Nat.cast_zero, mul_zero])
  · intro hone fuel hfuel
    exact congrArg Calc.outcome (search_quotient h hone hfuel)

theorem quotient_exact_seven :
    (⟨256, [232, 3], true⟩ : Number).WellFormed ∧ (⟨2, [1, 1, 1], false⟩ : Number).WellFormed ∧
    (divide ⟨256, [232, 3], true⟩ ⟨2, [1, 1, 1], false⟩).outcome = .ok ⟨256, [142], true⟩ ∧
    (search (quotientStep (ofInt 256 1000) (ofInt 256 7)) 1001
      ⟨ofInt 256 0, ofInt 256 1000⟩).outcome = .ok (ofInt 256 142) := by
  have ha : Denotes ⟨256, [232, 3], true⟩ 256 (-1000) := .of_eq (by decide) (by decide +kernel)
  have hb : Denotes ⟨2, [1, 1, 1], false⟩ 2 7 := .of_eq (by decide) (by decide +kernel)
  obtain ⟨-, hdivide, hsearch⟩ := quotient_exact ha.wellFormed hb.wellFormed
  rw [ha.toInt_eq, hb.toInt_eq] at hdivide hsearch
  obtain ⟨q, hq, hquotient, -⟩ := hdivide (by decide)
  have hnumber : q = ⟨256, [142], true⟩ := hquotient.eq_ofInt.trans (by decide +kernel)
  rw [hnumber] at hq
  exact ⟨ha.wellFormed, hb.wellFormed, hq, hsearch (by decide) 1001 (by decide)⟩

/-- A remainder is refused for a divisor below zero and for a divisor zero, and for nothing else. It
is what the product of quotient and divisor leaves of the dividend: smaller than the divisor, and
zero or of the dividend's sign. -/
theorem remainder_exact (ha : a.WellFormed) (hb : b.WellFormed) :
    (∀ f, (modulo a b).outcome = .error f ↔
      b.toInt < 0 ∧ f = .negativeModulus b ∨ b.toInt = 0 ∧ f = .divisionByZero a) ∧
    (0 < b.toInt → ∃ q r, (divide a b).outcome = .ok q ∧ (modulo a b).outcome = .ok r ∧
      r.base = a.base ∧ r.WellFormed ∧ a.toInt = q.toInt * b.toInt + r.toInt ∧
      |r.toInt| < b.toInt ∧ (r.IsUnsignedZero ∨ r.toInt.sign = a.toInt.sign)) := by
  have h := ha.one_lt_base
  rw [modulo_eq ha hb]
  constructor
  · intro f
    rcases lt_trichotomy b.toInt 0 with hneg | hzero | hpos
    · simp [hneg, hneg.ne, eq_comm]
    · simp [hzero, eq_comm]
    · simp [hpos.not_gt, hpos.ne']
  · intro hpos
    have hleft : a.toInt - a.toInt.tdiv b.toInt * b.toInt = a.toInt.tmod b.toInt := by
      rw [Int.tmod_def, mul_comm]
    have hr := denotes_ofInt h (a.toInt.tmod b.toInt)
    rw [if_neg hpos.not_gt, if_neg hpos.ne', hleft, divide_eq ha hb, if_neg hpos.ne']
    refine ⟨_, _, rfl, rfl, hr.base_eq, hr.wellFormed, ?_, ?_, ?_⟩
    · rw [toInt_ofInt h, hr.toInt_eq, Int.tdiv_mul_add_tmod]
    · rw [hr.toInt_eq, Int.abs_eq_natAbs, Int.natAbs_tmod]
      have := Nat.mod_lt a.toInt.natAbs (Int.natAbs_pos.2 hpos.ne')
      omega
    · by_cases hdvd : b.toInt ∣ a.toInt
      · exact Or.inl (hr.isUnsignedZero (Int.tmod_eq_zero_of_dvd hdvd))
      · right
        rw [hr.toInt_eq, Int.sign_tmod, if_neg hdvd]

theorem remainder_exact_seven :
    (⟨256, [232, 3], true⟩ : Number).WellFormed ∧ (⟨2, [1, 1, 1], false⟩ : Number).WellFormed ∧
    (⟨2, [1, 1, 1], true⟩ : Number).WellFormed ∧
    (modulo ⟨256, [232, 3], true⟩ ⟨2, [1, 1, 1], false⟩).outcome = .ok ⟨256, [6], true⟩ ∧
    (modulo ⟨256, [232, 3], true⟩ ⟨2, [1, 1, 1], true⟩).outcome =
      .error (.negativeModulus ⟨2, [1, 1, 1], true⟩) := by
  have ha : Denotes ⟨256, [232, 3], true⟩ 256 (-1000) := .of_eq (by decide) (by decide +kernel)
  have hb : Denotes ⟨2, [1, 1, 1], false⟩ 2 7 := .of_eq (by decide) (by decide +kernel)
  have hc : Denotes ⟨2, [1, 1, 1], true⟩ 2 (-7) := .of_eq (by decide) (by decide +kernel)
  obtain ⟨-, hleft⟩ := remainder_exact ha.wellFormed hb.wellFormed
  obtain ⟨hrefused, -⟩ := remainder_exact ha.wellFormed hc.wellFormed
  rw [ha.toInt_eq, hb.toInt_eq] at hleft
  rw [hc.toInt_eq] at hrefused
  obtain ⟨q, r, -, hr, hbase, hformed, hsum, hlt, hsign⟩ := hleft (by decide)
  rw [abs_lt] at hlt
  have hvalue : r.toInt = -6 := by
    rcases hsign with ⟨hlimbs, hunsigned⟩ | hsign
    · have hzero : r.toInt = 0 := by simp [toInt, magnitude, hlimbs, hunsigned]
      omega
    · have hneg := Int.sign_eq_neg_one_iff_neg.1 hsign
      omega
  have hnumber : r = ⟨256, [6], true⟩ := by
    rw [hformed.eq_ofInt, hbase, hvalue]
    decide +kernel
  rw [hnumber] at hr
  exact ⟨ha.wellFormed, hb.wellFormed, hc.wellFormed, hr, (hrefused _).2 (Or.inl ⟨by decide, rfl⟩)⟩

/-- A root is refused exactly for a number below zero, and is else the greatest number whose square
is at most the operand. The search for it ends with any fuel above its first upper bound. -/
theorem root_exact (ha : a.WellFormed) :
    ((squareRoot a).outcome = .error (.negativeOperand a) ↔ a.toInt < 0) ∧
    (0 ≤ a.toInt → ∃ r, (squareRoot a).outcome = .ok r ∧ r.base = a.base ∧ r.WellFormed ∧
      0 ≤ r.toInt ∧ r.negative = false ∧
      r.toInt * r.toInt ≤ a.toInt ∧ a.toInt < (r.toInt + 1) * (r.toInt + 1) ∧
      ∀ fuel, a.toInt.natAbs + 1 < fuel →
        (search (rootStep a) fuel ⟨ofInt a.base 0, ofInt a.base (a.toInt + 1)⟩).outcome =
          .ok r) := by
  have h := ha.one_lt_base
  rw [squareRoot_eq ha]
  constructor
  · by_cases hneg : a.toInt < 0
    · simp [hneg]
    · simp [hneg]
  · intro hpos
    obtain ⟨n, hn⟩ := Int.eq_ofNat_of_zero_le hpos
    have hroot := denotes_ofInt h (n.sqrt : Nat)
    have heq : a = ofInt a.base n := by rw [← hn, ← ha.eq_ofInt]
    have hle : n.sqrt * n.sqrt ≤ n := Nat.sqrt_le n
    have hlt : n < (n.sqrt + 1) * (n.sqrt + 1) := Nat.lt_succ_sqrt n
    rw [if_neg hpos.not_gt, hn, Int.toNat_natCast]
    refine ⟨_, rfl, hroot.base_eq, hroot.wellFormed, ?_⟩
    rw [hroot.toInt_eq]
    refine ⟨Int.natCast_nonneg _, by simp, by exact_mod_cast hle, by exact_mod_cast hlt, ?_⟩
    intro fuel hfuel
    have hsearch := search_root h (show n + 1 < fuel by simpa using hfuel)
    rw [← heq] at hsearch
    exact congrArg Calc.outcome hsearch

theorem root_exact_below_square :
    (⟨10, [9, 9, 9, 9], false⟩ : Number).WellFormed ∧
    (squareRoot ⟨10, [9, 9, 9, 9], false⟩).outcome = .ok ⟨10, [9, 9], false⟩ ∧
    (search (rootStep ⟨10, [9, 9, 9, 9], false⟩) 10001
      ⟨ofInt 10 0, ofInt 10 10000⟩).outcome = .ok ⟨10, [9, 9], false⟩ := by
  have ha : Denotes ⟨10, [9, 9, 9, 9], false⟩ 10 9999 := .of_eq (by decide) (by decide +kernel)
  obtain ⟨-, hroot⟩ := root_exact ha.wellFormed
  rw [ha.toInt_eq] at hroot
  obtain ⟨r, hr, hbase, hformed, hpos, -, hle, hlt, hsearch⟩ := hroot (by decide)
  have hupper : r.toInt ≤ 99 := by nlinarith
  have hlower : 99 ≤ r.toInt := by nlinarith
  have hvalue : r.toInt = 99 := le_antisymm hupper hlower
  have hnumber : r = ⟨10, [9, 9], false⟩ := by
    rw [hformed.eq_ofInt, hbase, hvalue]
    decide +kernel
  rw [hnumber] at hr hsearch
  exact ⟨ha.wellFormed, hr, hsearch 10001 (by decide)⟩

end Radix.Number
