import Radix.Number.Bisection
import Radix.Proofs.Number.Arithmetic

namespace Radix.Number

variable {base : Nat} {a b : Number}

theorem tdiv_signed (x y : Bool) (m n : Nat) :
    (signed x m).tdiv (signed y n) = signed (x != y) (m / n) := by
  cases x <;> cases y <;> simp [signed, Int.neg_tdiv, Int.tdiv_neg]

theorem halve_eq {a : Number} (ha : a.WellFormed) :
    a.halve = .ok (ofInt a.base (a.toInt.tdiv 2)) := by
  obtain ⟨hvalue, -, hrange⟩ := Limbs.halve_spec ha.canonical.limbs_lt
  have hhalf : signed a.negative (a.magnitude / 2) = a.toInt.tdiv 2 := by
    have htdiv := tdiv_signed a.negative false a.magnitude 2
    rw [Bool.bne_false] at htdiv
    exact htdiv.symm
  rw [halve, ofComputed_eq ha.one_lt_base _ hrange, hvalue, ← hhalf]
  rfl

def interval (base l r : Nat) : Bounds := ⟨ofInt base l, ofInt base r⟩

theorem fuel_interval (h : 1 < base) (l r : Nat) : (interval base l r).fuel = r - l + 1 := by
  rw [Bounds.fuel, interval, magnitude_ofInt h, magnitude_ofInt h, Int.natAbs_natCast,
    Int.natAbs_natCast]

theorem middle_interval (h : 1 < base) (l r : Nat) :
    (interval base l r).middle = ⟨.ok (ofInt base ((l + r) / 2 : Nat)), []⟩ := by
  have hsum := add_ofInt h l r
  have hhalf := halve_eq (wellFormed_ofInt h (l + r : Int))
  rw [toInt_ofInt h, base_ofInt] at hhalf
  have hnat : ((l + r : Int)).tdiv 2 = ((l + r) / 2 : Nat) := by
    rw [Int.tdiv_eq_ediv_of_nonneg (by omega)]
    omega
  rw [Bounds.middle, interval, hsum, Calc.ok_bind, hhalf, hnat, Calc.lift_ok]

theorem compare_cases (m n : Nat) :
    m = n ∧ Ord.compare m n = .eq ∨
      m ≠ n ∧ (Ord.compare m n = .lt ∨ Ord.compare m n = .gt) := by
  rcases lt_trichotomy m n with hlt | heq | hgt
  · exact Or.inr ⟨hlt.ne, Or.inl (compare_lt_iff_lt.2 hlt)⟩
  · exact Or.inl ⟨heq, compare_eq_iff_eq.2 heq⟩
  · exact Or.inr ⟨hgt.ne', Or.inr (compare_gt_iff_gt.2 hgt)⟩

theorem pure_of_compare {α : Type} (m n : Nat) (x y : α) :
    (match Ord.compare m n with | .eq => (pure x : Calc α) | _ => pure y) =
      ⟨.ok (if m = n then x else y), []⟩ := by
  rcases compare_cases m n with ⟨hmn, ho⟩ | ⟨hmn, ho | ho⟩
  · rw [if_pos hmn, ho]
    rfl
  · rw [if_neg hmn, ho]
    rfl
  · rw [if_neg hmn, ho]
    rfl

/-- What a probe has to do: find the answer, or narrow the interval and keep its invariant. -/
def Probe.Advances (base answer : Nat) (Inv : Nat → Nat → Prop) (l r : Nat) : Probe → Prop
  | .exact x | .settled x => x = ofInt base answer
  | .narrowed bounds =>
    ∃ l' r', bounds = interval base l' r' ∧ l' ≤ r' ∧ r' - l' < r - l ∧ Inv l' r'

/-- A search whose every probe advances ends in the answer before its fuel does. -/
theorem search_eq (h : 1 < base) {step : Bounds → Calc Probe} {probe : Nat → Nat → Probe}
    {answer : Nat} {Inv : Nat → Nat → Prop}
    (hstep : ∀ l r, step (interval base l r) = ⟨.ok (probe l r), []⟩)
    (hprobe : ∀ l r, l < r → Inv l r → (probe l r).Advances base answer Inv l r)
    (hdone : ∀ l, Inv l l → l = answer) {fuel l r : Nat} (hlr : l ≤ r) (hinv : Inv l r)
    (hfuel : r - l < fuel) :
    search step fuel (interval base l r) = ⟨.ok (ofInt base answer), []⟩ := by
  induction fuel generalizing l r with
  | zero => omega
  | succ fuel ih =>
    have hcompare : compare (interval base l r).left (interval base l r).right =
        ⟨.ok (Ord.compare l r), []⟩ := by
      rw [interval, compare_ofInt h, Int.natAbs_natCast, Int.natAbs_natCast]
    rw [search, hcompare, Calc.ok_bind]
    rcases Nat.lt_or_eq_of_le hlr with hlt | rfl
    · have hadvances := hprobe l r hlt hinv
      rw [compare_lt_iff_lt.2 hlt]
      simp only [hstep, Calc.ok_bind]
      cases hp : probe l r with
      | exact x =>
        rw [hp] at hadvances
        rw [show x = ofInt base answer from hadvances]
        rfl
      | settled x =>
        rw [hp] at hadvances
        rw [show x = ofInt base answer from hadvances]
        rfl
      | narrowed bounds =>
        rw [hp] at hadvances
        obtain ⟨l', r', rfl, hlr', hnarrow, hinv'⟩ := hadvances
        exact ih hlr' hinv' (by omega)
    · rw [compare_eq_iff_eq.2 rfl, hdone l hinv]
      rfl

def quotientProbe (base t d l r : Nat) : Probe :=
  if (l + r) / 2 * d = t then .exact (ofInt base ((l + r) / 2 : Nat))
  else if (l + r) / 2 = l then .settled (ofInt base ((l + r) / 2 : Nat))
  else if (l + r) / 2 * d < t then .narrowed (interval base ((l + r) / 2) r)
  else .narrowed (interval base l ((l + r) / 2))

theorem quotientStep_interval (h : 1 < base) (t d l r : Nat) :
    quotientStep (ofInt base t) (ofInt base d) (interval base l r) =
      ⟨.ok (quotientProbe base t d l r), []⟩ := by
  have hproduct := multiply_ofInt h ((l + r) / 2 : Nat) d
  rw [← Nat.cast_mul] at hproduct
  rw [quotientStep, middle_interval h, Calc.ok_bind, hproduct, Calc.ok_bind, compare_ofInt h,
    Calc.ok_bind, Int.natAbs_natCast, Int.natAbs_natCast, quotientProbe, interval]
  generalize (l + r) / 2 = m
  rcases lt_trichotomy (m * d) t with hlt | heq | hgt
  · -- too small, unless the interval has nothing between its bounds
    rw [compare_lt_iff_lt.2 hlt, if_neg hlt.ne, if_pos hlt]
    simp only [compare_ofInt h, Calc.ok_bind, Int.natAbs_natCast]
    exact pure_of_compare m l _ _
  · rw [compare_eq_iff_eq.2 heq, if_pos heq]
    rfl
  · rw [compare_gt_iff_gt.2 hgt, if_neg hgt.ne', if_neg hgt.not_gt]
    simp only [compare_ofInt h, Calc.ok_bind, Int.natAbs_natCast]
    exact pure_of_compare m l _ _

/-- The quotient lies in the interval: the lower bound is not above it and the upper bound is. The
one interval without such an upper bound is the empty one of a dividend zero. -/
def QuotientIn (t d l r : Nat) : Prop := l * d ≤ t ∧ (t < r * d ∨ t = 0 ∧ r = 0)

theorem quotientProbe_advances {t d l r : Nat} (hlr : l < r) (hin : QuotientIn t d l r) :
    (quotientProbe base t d l r).Advances base (t / d) (QuotientIn t d) l r := by
  -- the interval of a dividend zero is empty, and not probed
  obtain ⟨hleft, hright | ⟨-, rfl⟩⟩ := hin
  swap
  · omega
  have hd : 0 < d := by
    rcases Nat.eq_zero_or_pos d with rfl | hd
    · simp at hright
    · exact hd
  rw [quotientProbe]
  have hmid : l ≤ (l + r) / 2 ∧ (l + r) / 2 < r := by omega
  have hsettled : (l + r) / 2 = l → r = l + 1 := by omega
  generalize (l + r) / 2 = m at hmid hsettled
  split_ifs with hexact hml hlt
  · rw [Probe.Advances, ← hexact, Nat.mul_div_cancel _ hd]
  · rw [hsettled hml] at hright
    rw [Probe.Advances, hml, Nat.div_eq_of_lt_le hleft hright]
  · exact ⟨m, r, rfl, hmid.2.le, by omega, hlt.le, Or.inl hright⟩
  · exact ⟨l, m, rfl, hmid.1, by omega, hleft, Or.inl (by omega)⟩

theorem search_quotient (h : 1 < base) {t d fuel : Nat} (hd : 1 < d) (hfuel : t < fuel) :
    search (quotientStep (ofInt base t) (ofInt base d)) fuel (interval base 0 t) =
      ⟨.ok (ofInt base (t / d : Nat)), []⟩ := by
  have hin : QuotientIn t d 0 t := by
    refine ⟨by omega, ?_⟩
    rcases Nat.eq_zero_or_pos t with ht | ht
    · exact Or.inr ⟨ht, ht⟩
    · exact Or.inl ((Nat.lt_mul_iff_one_lt_right ht).2 hd)
  have hdone : ∀ l, QuotientIn t d l l → l = t / d := by
    rintro l ⟨hleft, hright | ⟨ht, rfl⟩⟩
    · omega
    · rw [ht, Nat.zero_div]
  exact search_eq h (quotientStep_interval h t d)
    (fun l r hlr hin => quotientProbe_advances hlr hin) hdone (Nat.zero_le t) hin (by omega)

def quotientLoop (a b : Number) : Bounds → Calc Probe :=
  quotientStep (ofInt a.base a.magnitude) (ofInt a.base b.magnitude)

theorem divide_eq_search (ha : a.WellFormed) (hb : b.WellFormed) (hone : 1 < b.magnitude) :
    divide a b = (do
      let _ ← reconcile a b
      let quotient ← search (quotientLoop a b) (interval a.base 0 a.magnitude).fuel
        (interval a.base 0 a.magnitude)
      quotient.withSign (a.negative != b.negative)) := by
  have h := ha.one_lt_base
  have hzero : ¬ b.toInt = 0 := by
    have := natAbs_toInt b
    omega
  have hmagnitude : ¬ b.toInt.natAbs = 1 := by
    rw [natAbs_toInt]
    omega
  rw [divide, reconcile_eq h hb, Calc.bind_ok, Calc.bind_ok, isZero_ofInt h, isOne_ofInt h,
    if_neg (by simpa using hzero), if_neg (by simpa using hmagnitude), abs_eq ha,
    abs_eq (wellFormed_ofInt h b.toInt), zero_eq h, magnitude_ofInt h, natAbs_toInt,
    negative_ofInt, ← hb.negative_eq]
  rfl

theorem divide_eq (ha : a.WellFormed) (hb : b.WellFormed) :
    divide a b =
      ⟨if b.toInt = 0 then .error (.divisionByZero a)
        else .ok (ofInt a.base (a.toInt.tdiv b.toInt)), conversionLog b.base a.base⟩ := by
  have h := ha.one_lt_base
  have hquotient := tdiv_signed a.negative b.negative a.magnitude b.magnitude
  rw [← toInt_eq_signed, ← toInt_eq_signed] at hquotient
  have hmagnitude := natAbs_toInt b
  by_cases hlarge : 1 < b.magnitude
  · have hfuel : a.magnitude < (interval a.base 0 a.magnitude).fuel := by
      rw [fuel_interval h]
      omega
    have hsign := withSign_eq (wellFormed_ofInt h (a.magnitude / b.magnitude : Nat))
      (a.negative != b.negative)
    rw [magnitude_ofInt h, Int.natAbs_natCast, base_ofInt, ← hquotient] at hsign
    rw [divide_eq_search ha hb hlarge, quotientLoop, search_quotient h hlarge hfuel,
      reconcile_eq h hb, Calc.bind_ok, Calc.ok_bind, hsign, Calc.lift_ok, if_neg (by omega),
      List.append_nil]
  · rw [divide, reconcile_eq h hb, Calc.bind_ok, isZero_ofInt h, isOne_ofInt h]
    by_cases hzero : b.toInt = 0
    · simp [hzero, Calc.fail]
    · have hone : b.magnitude = 1 := by omega
      rw [hone, Nat.div_one] at hquotient
      rw [if_neg (by simpa using hzero), if_pos (by simpa using hone), if_neg hzero,
        withSign_eq ha, negative_ofInt, ← hb.negative_eq, ← hquotient, Calc.lift_ok,
        List.append_nil]

theorem divide_ofInt (h : 1 < base) (m n : Int) :
    divide (ofInt base m) (ofInt base n) =
      ⟨if n = 0 then .error (.divisionByZero (ofInt base m)) else .ok (ofInt base (m.tdiv n)),
        []⟩ := by
  have hdivide := divide_eq (wellFormed_ofInt h m) (wellFormed_ofInt h n)
  rwa [toInt_ofInt h, toInt_ofInt h, base_ofInt, base_ofInt, conversionLog_self] at hdivide

theorem modulo_eq (ha : a.WellFormed) (hb : b.WellFormed) :
    modulo a b =
      if b.toInt < 0 then ⟨.error (.negativeModulus b), []⟩
      else ⟨if b.toInt = 0 then .error (.divisionByZero a)
        else .ok (ofInt a.base (a.toInt - a.toInt.tdiv b.toInt * b.toInt)),
          conversionLog b.base a.base⟩ := by
  rw [modulo]
  by_cases hneg : b.negative = true
  · rw [if_pos hneg, if_pos (hb.negative_iff.1 hneg)]
    rfl
  · have hdivide := divide_ofInt ha.one_lt_base a.toInt b.toInt
    rw [← ha.eq_ofInt] at hdivide
    rw [if_neg hneg, if_neg (hb.negative_iff.not.1 hneg), reconcile_eq ha.one_lt_base hb,
      Calc.bind_ok, hdivide]
    by_cases hzero : b.toInt = 0
    · simp [hzero]
    · have hsubtract := subtract_ofInt ha.one_lt_base a.toInt (a.toInt.tdiv b.toInt * b.toInt)
      rw [← ha.eq_ofInt] at hsubtract
      rw [if_neg hzero, if_neg hzero, Calc.ok_bind, multiply_ofInt ha.one_lt_base, Calc.ok_bind,
        hsubtract, List.append_nil]

def rootProbe (base a l r : Nat) : Probe :=
  if (l + r) / 2 * ((l + r) / 2) = a then .exact (ofInt base ((l + r) / 2 : Nat))
  else if a < (l + r) / 2 * ((l + r) / 2) then
    if (l + r) / 2 = r then .settled (ofInt base l)
    else .narrowed (interval base l ((l + r) / 2))
  else if (l + r) / 2 = l then .settled (ofInt base l)
  else .narrowed (interval base ((l + r) / 2) r)

theorem rootStep_interval (h : 1 < base) (a l r : Nat) :
    rootStep (ofInt base a) (interval base l r) = ⟨.ok (rootProbe base a l r), []⟩ := by
  have hsquare := multiply_ofInt h ((l + r) / 2 : Nat) ((l + r) / 2 : Nat)
  rw [← Nat.cast_mul] at hsquare
  rw [rootStep, middle_interval h, Calc.ok_bind, hsquare, Calc.ok_bind, compare_ofInt h,
    Calc.ok_bind, Int.natAbs_natCast, Int.natAbs_natCast, rootProbe, interval]
  generalize (l + r) / 2 = m
  rcases lt_trichotomy (m * m) a with hlt | heq | hgt
  · rw [compare_lt_iff_lt.2 hlt, if_neg hlt.ne, if_neg hlt.not_gt]
    simp only [reduceCtorEq, if_false, compare_ofInt h, Calc.ok_bind, Int.natAbs_natCast]
    rcases compare_cases l m with ⟨hml, ho⟩ | ⟨hml, ho | ho⟩
    · rw [if_pos hml.symm, ho, compare_eq_iff_eq.2 rfl, hml]
      rfl
    · rw [if_neg hml.symm, ho]
      rfl
    · rw [if_neg hml.symm, ho]
      rfl
  · rw [compare_eq_iff_eq.2 heq, if_pos heq]
    rfl
  · rw [compare_gt_iff_gt.2 hgt, if_neg hgt.ne', if_pos hgt]
    simp only [if_true, compare_ofInt h, Calc.ok_bind, Int.natAbs_natCast, compare_eq_iff_eq.2]
    simp only [show m = r ↔ r = m from eq_comm]
    exact pure_of_compare r m _ _

def RootIn (a l r : Nat) : Prop := l * l ≤ a ∧ a < r * r

theorem rootProbe_advances {a l r : Nat} (hlr : l < r) (hin : RootIn a l r) :
    (rootProbe base a l r).Advances base a.sqrt (RootIn a) l r := by
  obtain ⟨hleft, hright⟩ := hin
  rw [rootProbe]
  have hmid : l ≤ (l + r) / 2 ∧ (l + r) / 2 < r := by omega
  have hsettled : (l + r) / 2 = l → r = l + 1 := by omega
  generalize (l + r) / 2 = m at hmid hsettled
  split_ifs with hexact hgt hmr hml
  · rw [Probe.Advances, ← hexact, Nat.sqrt_eq]
  · omega
  · exact ⟨l, m, rfl, hmid.1, by omega, hleft, hgt⟩
  · rw [hsettled hml] at hright
    rw [Probe.Advances, Nat.eq_sqrt.2 ⟨hleft, hright⟩]
  · exact ⟨m, r, rfl, hmid.2.le, by omega, by omega, hright⟩

theorem search_root (h : 1 < base) {a fuel : Nat} (hfuel : a + 1 < fuel) :
    search (rootStep (ofInt base a)) fuel (interval base 0 (a + 1)) =
      ⟨.ok (ofInt base (a.sqrt : Nat)), []⟩ := by
  have hin : RootIn a 0 (a + 1) := ⟨Nat.zero_le a, by nlinarith⟩
  have hdone : ∀ l, RootIn a l l → l = a.sqrt := fun l hl => absurd hl.1 hl.2.not_ge
  exact search_eq h (rootStep_interval h a)
    (fun l r hlr hin => rootProbe_advances hlr hin) hdone (Nat.zero_le _) hin (by omega)

theorem squareRoot_eq_search (ha : a.WellFormed) (hpos : 0 ≤ a.toInt) :
    squareRoot a =
      search (rootStep a) (interval a.base 0 (a.magnitude + 1)).fuel
        (interval a.base 0 (a.magnitude + 1)) := by
  have h := ha.one_lt_base
  have hright := add_ofInt h a.toInt 1
  rw [← ha.eq_ofInt, ← Int.natAbs_of_nonneg hpos, natAbs_toInt] at hright
  rw [squareRoot, if_neg (ha.negative_iff.not.2 hpos.not_gt), one_eq h, zero_eq h]
  simp only [Calc.lift_ok, Calc.ok_bind, hright]
  rfl

theorem squareRoot_eq (ha : a.WellFormed) :
    squareRoot a =
      ⟨if a.toInt < 0 then .error (.negativeOperand a)
        else .ok (ofInt a.base (a.toInt.toNat.sqrt : Nat)), []⟩ := by
  have h := ha.one_lt_base
  by_cases hneg : a.toInt < 0
  · rw [squareRoot, if_pos (ha.negative_iff.2 hneg), if_pos hneg]
    rfl
  · have hvalue : a.toInt = a.magnitude := by
      rw [← natAbs_toInt]
      omega
    have hfuel : a.magnitude + 1 < (interval a.base 0 (a.magnitude + 1)).fuel := by
      rw [fuel_interval h]
      omega
    have hsearch := search_root h hfuel
    rw [← hvalue, ← ha.eq_ofInt] at hsearch
    rw [if_neg hneg, squareRoot_eq_search ha (not_lt.1 hneg), hsearch, hvalue, Int.toNat_natCast]

end Radix.Number
