import Mathlib.Logic.Relation
import Radix.Proofs.Number.Search

namespace Radix.Number

variable {base : Nat} {a b : Number} {step : Bounds → Calc Probe} {start bounds narrower : Bounds}

/-- An iteration that goes on: the loop test passes and the step narrows the interval. -/
structure Continues (step : Bounds → Calc Probe) (bounds narrower : Bounds) : Prop where
  test : (compare bounds.left bounds.right).outcome = .ok .lt
  narrowed : (step bounds).outcome = .ok (.narrowed narrower)

/-- The bounds that the loop of a search comes to test. -/
def Tested (step : Bounds → Calc Probe) (start bounds : Bounds) : Prop :=
  Relation.ReflTransGen (Continues step) start bounds

/-- How the loop of a search is left: by its test, by an exact answer or by an interval that the step
cannot narrow. -/
inductive Exit where
  | closed
  | exact
  | settled
  deriving DecidableEq, Repr

def Leaves (step : Bounds → Calc Probe) (bounds : Bounds) : Exit → Number → Prop
  | .closed, x => (∃ order, (compare bounds.left bounds.right).outcome = .ok order ∧ order ≠ .lt) ∧
      x = bounds.left
  | .exact, x => (compare bounds.left bounds.right).outcome = .ok .lt ∧
      (step bounds).outcome = .ok (.exact x)
  | .settled, x => (compare bounds.left bounds.right).outcome = .ok .lt ∧
      (step bounds).outcome = .ok (.settled x)

theorem exists_last {fuel : Nat} {x : Number} (h : (search step fuel start).outcome = .ok x) :
    ∃ last exit, Tested step start last ∧ Leaves step last exit x := by
  induction fuel generalizing start with
  | zero => simp [search, Calc.fail] at h
  | succ fuel ih =>
    rw [search] at h
    obtain ⟨order, hcompare, h⟩ := Calc.exists_of_bind_eq_ok h
    cases order with
    | lt =>
      obtain ⟨probe, hprobe, h⟩ := Calc.exists_of_bind_eq_ok h
      cases probe with
      | exact y =>
        cases h
        exact ⟨start, .exact, .refl, hcompare, hprobe⟩
      | settled y =>
        cases h
        exact ⟨start, .settled, .refl, hcompare, hprobe⟩
      | narrowed narrower =>
        obtain ⟨last, exit, htested, hleaves⟩ := ih h
        exact ⟨last, exit, .head ⟨hcompare, hprobe⟩ htested, hleaves⟩
    | eq =>
      cases h
      exact ⟨start, .closed, .refl, ⟨_, hcompare, by decide⟩, rfl⟩
    | gt =>
      cases h
      exact ⟨start, .closed, .refl, ⟨_, hcompare, by decide⟩, rfl⟩

/-- One iteration of a search for the greatest number whose image under `f` is at most `n`: one bound
is replaced by the middle, which it is not, the loop test still passes, the interval is smaller, and
the bounds give less and more than `n`. -/
structure Narrows (f : Int → Int) (n : Int) (bounds narrower : Bounds) : Prop where
  moved : ∃ middle, bounds.middle.outcome = .ok middle ∧
    middle.toInt = (bounds.left.toInt + bounds.right.toInt) / 2 ∧
    (narrower = ⟨middle, bounds.right⟩ ∧ middle ≠ bounds.left ∨
      narrower = ⟨bounds.left, middle⟩ ∧ middle ≠ bounds.right)
  test : (compare narrower.left narrower.right).outcome = .ok .lt
  width_lt : narrower.right.toInt - narrower.left.toInt < bounds.right.toInt - bounds.left.toInt
  left_lt : f narrower.left.toInt < n
  lt_right : n < f narrower.right.toInt

/-- A search that makes progress from its first bounds on, and so ends. -/
structure Progresses (step : Bounds → Calc Probe) (start : Bounds) (f : Int → Int) (n : Int) :
    Prop where
  ordered : ∀ bounds, Tested step start bounds →
    0 ≤ bounds.left.toInt ∧ bounds.left.toInt ≤ bounds.right.toInt
  narrows : ∀ bounds narrower, Tested step start bounds → Continues step bounds narrower →
    Narrows f n bounds narrower
  finite : Acc (fun narrower bounds => Continues step bounds narrower) start
  answered : ∃ last exit x, Tested step start last ∧ Leaves step last exit x ∧
    (search step start.fuel start).outcome = .ok x

/-- Bounds whose images under `f` lie on either side of `n`. -/
def Straddles (f : Int → Int) (n : Int) (l r : Nat) : Prop := f l < n ∧ n < f r

/-- The first bounds of a search straddle the target, unless it is zero: then they leave no number
but zero to be tried. -/
def StartsAround (f : Int → Int) (n : Int) (l r : Nat) : Prop :=
  Straddles f n l r ∨ n = 0 ∧ l = 0 ∧ r ≤ 1

/-- A step that narrows an interval moves the bound on the middle's side of the target, and no lower
bound onto itself. -/
structure Bisects (step : Bounds → Calc Probe) (base : Nat) (f : Int → Int) (n : Int) : Prop where
  one_lt_base : 1 < base
  map_zero : f 0 = 0
  moves : ∀ {l r : Nat} {narrower : Bounds}, l < r →
    (step (interval base l r)).outcome = .ok (.narrowed narrower) →
    f ((l + r) / 2 : Nat) < n ∧ (l + r) / 2 ≠ l ∧ narrower = interval base ((l + r) / 2) r ∨
    n < f ((l + r) / 2 : Nat) ∧ narrower = interval base l ((l + r) / 2)

theorem ofInt_ne (h : 1 < base) {m n : Nat} (hmn : m ≠ n) : ofInt base m ≠ ofInt base n := by
  intro heq
  have hvalue := congrArg toInt heq
  rw [toInt_ofInt h, toInt_ofInt h] at hvalue
  omega

theorem compare_interval (h : 1 < base) (l r : Nat) :
    (compare (interval base l r).left (interval base l r).right).outcome =
      .ok (Ord.compare l r) := by
  rw [interval, compare_ofInt h, Int.natAbs_natCast, Int.natAbs_natCast]

section

variable {f : Int → Int} {n : Int} {l r l' r' : Nat}

theorem narrows_interval (h : 1 < base)
    (hmoved : l' = (l + r) / 2 ∧ r' = r ∧ l < l' ∨ l' = l ∧ r' = (l + r) / 2 ∧ r' < r)
    (hlt : l' < r') (hs : Straddles f n l' r') :
    Narrows f n (interval base l r) (interval base l' r') := by
  have hmiddle := congrArg Calc.outcome (middle_interval h l r)
  refine ⟨⟨_, hmiddle, ?_, ?_⟩, ?_, ?_, ?_, ?_⟩
  · simp only [interval, toInt_ofInt h]
    omega
  · rcases hmoved with ⟨rfl, rfl, hne⟩ | ⟨rfl, rfl, hne⟩
    · exact Or.inl ⟨rfl, ofInt_ne h hne.ne'⟩
    · exact Or.inr ⟨rfl, ofInt_ne h hne.ne⟩
  · rw [compare_interval h, compare_lt_iff_lt.2 hlt]
  · simp only [interval, toInt_ofInt h]
    omega
  · simpa only [interval, toInt_ofInt h] using hs.1
  · simpa only [interval, toInt_ofInt h] using hs.2

/-- What one iteration does: bounds that straddle the target, or first bounds, leave smaller bounds
that straddle it. -/
theorem Bisects.exists_interval (h : Bisects step base f n) (hin : StartsAround f n l r)
    (hcontinues : Continues step (interval base l r) narrower) :
    ∃ l' r', narrower = interval base l' r' ∧ l' < r' ∧ Straddles f n l' r' ∧
      Narrows f n (interval base l r) narrower := by
  have hlr := hcontinues.test
  rw [compare_interval h.one_lt_base, Except.ok.injEq, compare_lt_iff_lt] at hlr
  have hmoves := h.moves hlr hcontinues.narrowed
  have hmid : l ≤ (l + r) / 2 ∧ (l + r) / 2 < r := by omega
  have hin : Straddles f n l r := by
    rcases hin with hin | ⟨rfl, rfl, hr⟩
    · exact hin
    · -- the middle of zero and one is zero, which is exact for the target zero
      have hzero : (0 + r) / 2 = 0 := by omega
      have hmap := h.map_zero
      rw [hzero, Nat.cast_zero] at hmoves
      omega
  rcases hmoves with ⟨hlt, hne, rfl⟩ | ⟨hgt, rfl⟩
  · have hs : Straddles f n ((l + r) / 2 : Nat) r := ⟨hlt, hin.2⟩
    exact ⟨_, _, rfl, hmid.2, hs,
      narrows_interval h.one_lt_base (Or.inl ⟨rfl, rfl, by omega⟩) hmid.2 hs⟩
  · have hs : Straddles f n l ((l + r) / 2 : Nat) := ⟨hin.1, hgt⟩
    have hlt : l < (l + r) / 2 := by
      rcases hmid.1.lt_or_eq with hlt | heq
      · exact hlt
      · rw [← heq] at hgt
        exact absurd hin.1 hgt.not_gt
    exact ⟨_, _, rfl, hlt, hs,
      narrows_interval h.one_lt_base (Or.inr ⟨rfl, rfl, hmid.2⟩) hlt hs⟩

theorem Bisects.tested (h : Bisects step base f n) (hin : StartsAround f n l r)
    (ht : Tested step (interval base l r) bounds) :
    ∃ l' r', bounds = interval base l' r' ∧ StartsAround f n l' r' ∧
      (l' < r' ∨ l' = l ∧ r' = r) := by
  induction ht with
  | refl => exact ⟨l, r, rfl, hin, Or.inr ⟨rfl, rfl⟩⟩
  | tail _ hcontinues ih =>
    obtain ⟨l₁, r₁, rfl, hin₁, -⟩ := ih
    obtain ⟨l₂, r₂, heq, hlt, hs, -⟩ := h.exists_interval hin₁ hcontinues
    exact ⟨l₂, r₂, heq, Or.inl hs, Or.inl hlt⟩

theorem Bisects.narrows (h : Bisects step base f n) (hin : StartsAround f n l r)
    (ht : Tested step (interval base l r) bounds) (hcontinues : Continues step bounds narrower) :
    Narrows f n bounds narrower := by
  obtain ⟨l', r', rfl, hin', -⟩ := h.tested hin ht
  obtain ⟨-, -, -, -, -, hnarrows⟩ := h.exists_interval hin' hcontinues
  exact hnarrows

theorem Bisects.ordered (h : Bisects step base f n) (hin : StartsAround f n l r) (hlr : l ≤ r)
    (ht : Tested step (interval base l r) bounds) :
    0 ≤ bounds.left.toInt ∧ bounds.left.toInt ≤ bounds.right.toInt := by
  obtain ⟨l', r', rfl, -, hlr'⟩ := h.tested hin ht
  simp only [interval, toInt_ofInt h.one_lt_base]
  omega

/-- A search that narrows at every iteration cannot go on for ever, as no interval is smaller than
empty. -/
theorem acc_of_narrows
    (hordered : ∀ bounds, Tested step start bounds → bounds.left.toInt ≤ bounds.right.toInt)
    (hnarrows : ∀ bounds narrower, Tested step start bounds → Continues step bounds narrower →
      Narrows f n bounds narrower) (ht : Tested step start bounds) :
    Acc (fun narrower bounds => Continues step bounds narrower) bounds := by
  induction hw : (bounds.right.toInt - bounds.left.toInt).toNat using Nat.strong_induction_on
    generalizing bounds with
  | _ width ih =>
    refine Acc.intro bounds fun narrower hcontinues => ?_
    have hlt := (hnarrows bounds narrower ht hcontinues).width_lt
    have hle := hordered narrower (ht.tail hcontinues)
    exact ih _ (by omega) (ht.tail hcontinues) rfl

theorem Bisects.progresses (h : Bisects step base f n) (hin : StartsAround f n l r) (hlr : l ≤ r)
    {x : Number}
    (hx : (search step (interval base l r).fuel (interval base l r)).outcome = .ok x) :
    Progresses step (interval base l r) f n := by
  obtain ⟨last, exit, htested, hleaves⟩ := exists_last hx
  exact {
    ordered := fun bounds ht => h.ordered hin hlr ht
    narrows := fun bounds narrower ht hcontinues => h.narrows hin ht hcontinues
    finite := acc_of_narrows (fun bounds ht => (h.ordered hin hlr ht).2)
      (fun bounds narrower ht hcontinues => h.narrows hin ht hcontinues) .refl
    answered := ⟨last, exit, x, htested, hleaves, hx⟩ }

end

theorem quotientStep_bisects (h : 1 < base) (t d : Nat) :
    Bisects (quotientStep (ofInt base t) (ofInt base d)) base (fun q => q * d) t := by
  refine ⟨h, zero_mul _, ?_⟩
  intro l r narrower hlr hnarrowed
  rw [quotientStep_interval h, Except.ok.injEq, quotientProbe] at hnarrowed
  generalize (l + r) / 2 = m at hnarrowed ⊢
  split_ifs at hnarrowed with hexact hsettled hlt
  · cases hnarrowed
    exact Or.inl ⟨by exact_mod_cast hlt, hsettled, rfl⟩
  · cases hnarrowed
    have hgt : t < m * d := by omega
    exact Or.inr ⟨by exact_mod_cast hgt, rfl⟩

theorem rootStep_bisects (h : 1 < base) (a : Nat) :
    Bisects (rootStep (ofInt base a)) base (fun q => q * q) a := by
  refine ⟨h, zero_mul _, ?_⟩
  intro l r narrower hlr hnarrowed
  rw [rootStep_interval h, Except.ok.injEq, rootProbe] at hnarrowed
  generalize (l + r) / 2 = m at hnarrowed ⊢
  split_ifs at hnarrowed with hexact hgt hmr hml
  · cases hnarrowed
    exact Or.inr ⟨by exact_mod_cast hgt, rfl⟩
  · cases hnarrowed
    have hlt : m * m < a := by omega
    exact Or.inl ⟨by exact_mod_cast hlt, hml, rfl⟩

theorem exit_of_leaves_rootStep (h : 1 < base) {a l r : Nat} (hlr : l < r) {exit : Exit} {x : Number}
    (hleaves : Leaves (rootStep (ofInt base a)) (interval base l r) exit x) :
    exit = .exact ∧ x.toInt * x.toInt = a ∨
      exit = .settled ∧ (interval base l r).middle.outcome = .ok (interval base l r).left ∧
        x = (interval base l r).left := by
  have hmid : (l + r) / 2 < r := by omega
  rw [middle_interval h]
  cases exit with
  | closed =>
    obtain ⟨⟨order, horder, hne⟩, -⟩ := hleaves
    rw [compare_interval h, compare_lt_iff_lt.2 hlr] at horder
    cases horder
    exact absurd rfl hne
  | exact =>
    have hexact := hleaves.2
    rw [rootStep_interval h, Except.ok.injEq, rootProbe] at hexact
    generalize (l + r) / 2 = m at hexact hmid
    split_ifs at hexact with hsquare
    cases hexact
    rw [toInt_ofInt h]
    exact Or.inl ⟨rfl, by exact_mod_cast hsquare⟩
  | settled =>
    have hsettled := hleaves.2
    rw [rootStep_interval h, Except.ok.injEq, rootProbe] at hsettled
    generalize (l + r) / 2 = m at hsettled hmid
    split_ifs at hsettled with hsquare hgt hmr hml
    · omega
    · cases hsettled
      rw [hml]
      exact Or.inr ⟨rfl, rfl, rfl⟩

theorem startsAround_quotient (t : Nat) {d : Nat} (hd : 1 < d) :
    StartsAround (fun q => q * d) t 0 t := by
  rcases Nat.eq_zero_or_pos t with rfl | ht
  · exact Or.inr ⟨rfl, rfl, Nat.zero_le 1⟩
  · have hright : t < t * d := (Nat.lt_mul_iff_one_lt_right ht).2 hd
    refine Or.inl ⟨by simpa using ht, ?_⟩
    change (t : Int) < t * d
    exact_mod_cast hright

theorem startsAround_root (a : Nat) : StartsAround (fun r => r * r) a 0 (a + 1) := by
  rcases Nat.eq_zero_or_pos a with rfl | ha
  · exact Or.inr ⟨rfl, rfl, Nat.le_refl 1⟩
  · have hright : a < (a + 1) * (a + 1) := by nlinarith
    refine Or.inl ⟨by simpa using ha, ?_⟩
    change (a : Int) < (a + 1 : Nat) * (a + 1 : Nat)
    exact_mod_cast hright

theorem progresses_quotientLoop (ha : a.WellFormed) (hone : 1 < b.magnitude) :
    Progresses (quotientLoop a b) (interval a.base 0 a.magnitude) (fun q => q * |b.toInt|)
      |a.toInt| := by
  have h := ha.one_lt_base
  have hfuel : a.magnitude < (interval a.base 0 a.magnitude).fuel := by
    rw [fuel_interval h]
    omega
  have hsearch := congrArg Calc.outcome (search_quotient h hone hfuel)
  rw [Int.abs_eq_natAbs, Int.abs_eq_natAbs, natAbs_toInt, natAbs_toInt]
  exact (quotientStep_bisects h a.magnitude b.magnitude).progresses
    (startsAround_quotient a.magnitude hone) (Nat.zero_le _) hsearch

theorem progresses_rootStep (h : 1 < base) (a : Nat) :
    Progresses (rootStep (ofInt base a)) (interval base 0 (a + 1)) (fun r => r * r) a := by
  have hfuel : a + 1 < (interval base 0 (a + 1)).fuel := by
    rw [fuel_interval h]
    omega
  have hsearch := congrArg Calc.outcome (search_root h hfuel)
  exact (rootStep_bisects h a).progresses (startsAround_root a) (Nat.zero_le _) hsearch

/-- Both searches make progress at every iteration and end. The quotient search keeps the dividend
strictly between the products of its bounds, the root search the operand strictly between their
squares; the root search is never left by its loop test. -/
theorem searches_progress :
    (∀ {a b : Number}, a.WellFormed → b.WellFormed → b.toInt ≠ 0 → |b.toInt| ≠ 1 →
      divide a b = (do
        let _ ← reconcile a b
        let quotient ← search (quotientLoop a b) (interval a.base 0 a.magnitude).fuel
          (interval a.base 0 a.magnitude)
        quotient.withSign (a.negative != b.negative)) ∧
      Progresses (quotientLoop a b) (interval a.base 0 a.magnitude) (fun q => q * |b.toInt|)
        |a.toInt|) ∧
    ∀ {a : Number}, a.WellFormed → 0 ≤ a.toInt →
      squareRoot a = search (rootStep a) (interval a.base 0 (a.magnitude + 1)).fuel
        (interval a.base 0 (a.magnitude + 1)) ∧
      Progresses (rootStep a) (interval a.base 0 (a.magnitude + 1)) (fun r => r * r) a.toInt ∧
      ∀ {last : Bounds} {exit : Exit} {r : Number},
        Tested (rootStep a) (interval a.base 0 (a.magnitude + 1)) last →
        Leaves (rootStep a) last exit r →
        exit = .exact ∧ r.toInt * r.toInt = a.toInt ∨
          exit = .settled ∧ last.middle.outcome = .ok last.left ∧ r = last.left := by
  constructor
  · intro a b ha hb hzero hone
    have hlarge : 1 < b.magnitude := by
      rw [Int.abs_eq_natAbs] at hone
      rw [← natAbs_toInt]
      omega
    exact ⟨divide_eq_search ha hb hlarge, progresses_quotientLoop ha hlarge⟩
  · intro a ha hpos
    have h := ha.one_lt_base
    have hvalue : a.toInt = a.magnitude := by
      rw [← natAbs_toInt]
      omega
    have heq : a = ofInt a.base a.magnitude := by
      rw [← hvalue]
      exact ha.eq_ofInt
    have hprogresses := progresses_rootStep h a.magnitude
    have hbisects := rootStep_bisects h a.magnitude
    rw [← heq] at hprogresses hbisects
    rw [hvalue]
    refine ⟨squareRoot_eq_search ha hpos, hprogresses, ?_⟩
    intro last exit r htested hleaves
    obtain ⟨l', r', rfl, -, hlr⟩ := hbisects.tested (startsAround_root a.magnitude) htested
    rw [heq] at hleaves
    exact exit_of_leaves_rootStep h (by omega) hleaves

theorem searches_progress_hundred :
    (⟨10, [0, 0, 1], false⟩ : Number).WellFormed ∧ (⟨2, [1, 1, 1], true⟩ : Number).WellFormed ∧
    (⟨10, [2], false⟩ : Number).WellFormed ∧
    Continues (quotientLoop ⟨10, [0, 0, 1], false⟩ ⟨2, [1, 1, 1], true⟩) (interval 10 0 100)
      (interval 10 0 50) ∧
    Narrows (fun q => q * 7) 100 (interval 10 0 100) (interval 10 0 50) ∧
    Acc (fun narrower bounds =>
      Continues (quotientLoop ⟨10, [0, 0, 1], false⟩ ⟨2, [1, 1, 1], true⟩) bounds narrower)
      (interval 10 0 100) ∧
    Progresses (rootStep ⟨10, [2], false⟩) (interval 10 0 3) (fun r => r * r) 2 := by
  have ha : (⟨10, [0, 0, 1], false⟩ : Number).WellFormed :=
    ⟨by decide, ⟨by decide, by decide, by decide⟩, by decide⟩
  have hb : (⟨2, [1, 1, 1], true⟩ : Number).WellFormed :=
    ⟨by decide, ⟨by decide, by decide, by decide⟩, by decide⟩
  have hc : (⟨10, [2], false⟩ : Number).WellFormed :=
    ⟨by decide, ⟨by decide, by decide, by decide⟩, by decide⟩
  obtain ⟨-, hquotient⟩ := searches_progress.1 ha hb (by decide) (by decide)
  obtain ⟨-, hroot, -⟩ := searches_progress.2 hc (by decide)
  have hfirst : Continues (quotientLoop ⟨10, [0, 0, 1], false⟩ ⟨2, [1, 1, 1], true⟩)
      (interval 10 0 100) (interval 10 0 50) := by
    refine ⟨compare_interval (by decide) 0 100, ?_⟩
    exact congrArg Calc.outcome (quotientStep_interval (by decide) 100 7 0 100)
  exact ⟨ha, hb, hc, hfirst, hquotient.narrows _ _ .refl hfirst, hquotient.finite, hroot⟩

end Radix.Number
