import Radix.Limbs.Checked
import Radix.Proofs.Limbs.Canonical
import Radix.Proofs.Limbs.Sum

namespace Radix.Limbs

variable {base : Int}

theorem InRange.value_lt_pow {xs : List Int} (hb : 0 < base) (h : InRange base xs) :
    value base xs < base ^ xs.length := by
  obtain ⟨b, rfl⟩ := Int.eq_ofNat_of_zero_le hb.le
  obtain ⟨ns, rfl, hns⟩ := h.exists_nat
  have hlt := Limbs.value_lt_pow hns
  rw [value_map_ofNat, List.length_map]
  exact_mod_cast hlt

/-- Sums of raw limbs are exact and in range. They have the length of the longer operand, and one
limb more exactly when the values do not fit that length; that limb is one. -/
theorem sum_exact {xs ys : List Int} (hb : 1 < base) (hx : InRange base xs)
    (hy : InRange base ys) :
    ∃ zs, sum base xs ys = .ok zs ∧ InRange base zs ∧
      value base zs = value base xs + value base ys ∧
      (zs.length = max xs.length ys.length ∨ zs.length = max xs.length ys.length + 1) ∧
      (zs.length = max xs.length ys.length + 1 ↔
        base ^ max xs.length ys.length ≤ value base xs + value base ys) ∧
      (zs.length = max xs.length ys.length + 1 → zs.getLast? = some 1) := by
  have hpos : 0 < base := by omega
  have hdefined : sum base xs ys = .ok (add base xs ys) := by
    rw [sum, if_neg (by omega)]
  have hvalue := value_add hb hx hy
  refine ⟨_, hdefined, inRange_add hb hx hy, hvalue, ?_⟩
  have hcarries := addCarry_carriesTo hb ⟨le_rfl, zero_le_one⟩ hx hy
  rw [zero_add] at hcarries
  obtain ⟨low, top, hlimbs, hlength, hrange, htop, hone, hsplit⟩ := hcarries
  have hlow := hrange.value_lt_pow hpos
  rw [hlength] at hlow
  rw [add, hlimbs, ← hsplit]
  rcases (show top = 0 ∨ top = 1 by omega) with rfl | rfl
  · -- nothing is carried out, and the limbs below stay under the power
    simp [hlength, hlow]
  · have hnonneg := value_nonneg hpos hrange.nonneg
    simp [hlength, hnonneg]

theorem sum_exact_ripple :
    InRange 10 [9, 9, 9] ∧ InRange 10 [1] ∧ InRange 10 [5, 0, 0] ∧ InRange 10 [5, 0] ∧
    sum 10 [9, 9, 9] [1] = .ok [0, 0, 0, 1] ∧ sum 10 [5, 0, 0] [5, 0] = .ok [0, 1, 0] ∧
    ((10 : Int) ^ 3 ≤ value 10 [9, 9, 9] + value 10 [1] ∧
      ¬ (10 : Int) ^ 3 ≤ value 10 [5, 0, 0] + value 10 [5, 0]) := by
  have hnines : InRange 10 [9, 9, 9] := by simp
  have hone : InRange 10 [1] := by simp
  have hfive : InRange 10 [5, 0, 0] := by simp
  have hshort : InRange 10 [5, 0] := by simp
  obtain ⟨zs, hzs, -, -, -, hlonger, -⟩ := sum_exact (by decide) hnines hone
  obtain ⟨ws, hws, -, -, -, hsame, -⟩ := sum_exact (by decide) hfive hshort
  obtain rfl : [0, 0, 0, 1] = zs := Except.ok.inj (Eq.trans (by cbv) hzs)
  obtain rfl : [0, 1, 0] = ws := Except.ok.inj (Eq.trans (by cbv) hws)
  exact ⟨hnines, hone, hfive, hshort, hzs, hws, hlonger.1 rfl, hsame.not.1 (by decide)⟩

/-- Work on a minuend: the limbs that it gives, unless it looked past the end, and the places that it
looked up, in order. -/
structure Walk where
  outcome : Option (List Int)
  places : List Nat

namespace Walk

def done (limbs : List Int) : Walk := ⟨some limbs, []⟩

def outside (place : Nat) : Walk := ⟨none, [place]⟩

def after (place : Nat) (w : Walk) : Walk := ⟨w.outcome, place :: w.places⟩

def above (limb : Int) (w : Walk) : Walk := ⟨w.outcome.map (limb :: ·), w.places⟩

def andThen (w : Walk) (next : List Int → Walk) : Walk :=
  match w.outcome with
  | none => w
  | some limbs => ⟨(next limbs).outcome, w.places ++ (next limbs).places⟩

end Walk

/-- Takes one from the limbs from a place on: zero limbs become `base - 1` up to the first that is
not zero. -/
def borrowFrom (base : Int) (place : Nat) (minuend : List Int) : Walk :=
  if _ : place < minuend.length then
    if minuend[place] = 0 then
      .after place (borrowFrom base (place + 1) (minuend.set place (base - 1)))
    else .after place (.done (minuend.set place (minuend[place] - 1)))
  else .outside place
termination_by minuend.length - place
decreasing_by
  rw [List.length_set]
  omega

/-- Takes limbs from those of the minuend from a place on. Where the limb there is too small it
takes `base`, and a borrow changes the limbs above it before they are reached. -/
def subtractFrom (base : Int) (place : Nat) : List Int → List Int → Walk
  | [], minuend => .done (minuend.drop place)
  | y :: ys, minuend =>
    if _ : place < minuend.length then
      if minuend[place] < y then
        .after place ((borrowFrom base (place + 1) minuend).andThen fun paid =>
          (subtractFrom base (place + 1) ys paid).above (minuend[place] + base - y))
      else .after place ((subtractFrom base (place + 1) ys minuend).above (minuend[place] - y))
    else .outside place

def subtraction (base : Int) (xs ys : List Int) : Walk := subtractFrom base 0 ys xs

theorem borrowFrom_outcome (lower xs : List Int) :
    (borrowFrom base lower.length (lower ++ xs)).outcome = (borrow? base xs).map (lower ++ ·) := by
  induction xs generalizing lower with
  | nil => simp [borrowFrom, borrow?, Walk.outside]
  | cons x xs ih =>
    have hplace : lower.length < (lower ++ x :: xs).length := by simp
    rw [borrowFrom, dif_pos hplace, getElem_append_place, borrow?]
    by_cases hx : x = 0
    · have hrest := ih (lower ++ [base - 1])
      rw [List.length_append, List.length_singleton] at hrest
      rw [if_pos hx, if_pos hx, set_append_place]
      simp only [Walk.after, hrest, Option.map_map]
      simp [Function.comp_def]
    · rw [if_neg hx, if_neg hx]
      simp [Walk.after, Walk.done]

theorem subtractFrom_outcome (lower xs ys : List Int) :
    (subtractFrom base lower.length ys (lower ++ xs)).outcome = sub? base xs ys := by
  induction ys generalizing lower xs with
  | nil =>
    cases xs <;> simp [subtractFrom, sub?, Walk.done]
  | cons y ys ih =>
    cases xs with
    | nil => simp [subtractFrom, sub?, Walk.outside]
    | cons x xs =>
      have hplace : lower.length < (lower ++ x :: xs).length := by simp
      -- the place is done, whatever limb is left there
      have hrest := fun rest => ih (lower ++ [x]) rest
      have hborrow : (borrowFrom base _ _).outcome = _ := borrowFrom_outcome (lower ++ [x]) xs
      simp only [List.length_append, List.length_singleton, List.append_assoc,
        List.singleton_append] at hrest hborrow
      rw [subtractFrom, dif_pos hplace, getElem_append_place, sub?]
      by_cases hxy : x < y
      · rw [if_pos hxy, if_pos hxy, Walk.after, Walk.andThen, hborrow]
        cases hpaid : borrow? base xs with
        | none => simpa [hpaid] using hborrow
        | some paid => simp [Walk.above, hrest, Option.map_eq_bind]
      · rw [if_neg hxy, if_neg hxy]
        simp [Walk.after, Walk.above, hrest, Option.map_eq_bind]

theorem subtraction_outcome (xs ys : List Int) :
    (subtraction base xs ys).outcome = sub? base xs ys :=
  subtractFrom_outcome [] xs ys

theorem length_borrowFrom (place : Nat) (minuend : List Int) :
    ∀ paid ∈ (borrowFrom base place minuend).outcome, paid.length = minuend.length := by
  fun_induction borrowFrom base place minuend with
  | case1 place minuend hp hz ih =>
    intro paid hpaid
    rw [ih paid hpaid, List.length_set]
  | case2 place minuend hp hz =>
    rintro paid ⟨⟩
    exact List.length_set
  | case3 => rintro paid ⟨⟩

/-- Work that, if it gives limbs at all, has looked up no place from `n` on. -/
def Walk.Within (n : Nat) (w : Walk) : Prop := ∀ limbs ∈ w.outcome, ∀ place ∈ w.places, place < n

theorem Walk.within_done (n : Nat) (limbs : List Int) : (done limbs).Within n := by
  simp [Within, done]

theorem Walk.within_outside (n place : Nat) : (outside place).Within n := by
  rintro limbs ⟨⟩

theorem Walk.Within.after {n place : Nat} {w : Walk} (h : w.Within n) (hp : place < n) :
    (w.after place).Within n :=
  fun limbs hlimbs => List.forall_mem_cons.2 ⟨hp, h limbs hlimbs⟩

theorem Walk.Within.above {n : Nat} {w : Walk} (h : w.Within n) (limb : Int) :
    (w.above limb).Within n := by
  intro limbs hlimbs
  obtain ⟨rest, hrest, -⟩ := Option.map_eq_some_iff.1 hlimbs
  exact h rest hrest

theorem Walk.Within.andThen {n : Nat} {w : Walk} {next : List Int → Walk} (h : w.Within n)
    (hnext : ∀ limbs ∈ w.outcome, (next limbs).Within n) : (w.andThen next).Within n := by
  intro out hout
  cases hw : w.outcome with
  | none => simp [Walk.andThen, hw] at hout
  | some limbs =>
    simp only [Walk.andThen, hw] at hout ⊢
    exact List.forall_mem_append.2 ⟨h limbs hw, hnext limbs hw out hout⟩

theorem borrowFrom_within (place : Nat) (minuend : List Int) :
    (borrowFrom base place minuend).Within minuend.length := by
  fun_induction borrowFrom base place minuend with
  | case1 place minuend hp hz ih =>
    rw [List.length_set] at ih
    exact ih.after hp
  | case2 place minuend hp hz => exact (Walk.within_done _ _).after hp
  | case3 place minuend hp => exact Walk.within_outside _ place

theorem subtractFrom_within (place : Nat) (ys minuend : List Int) :
    (subtractFrom base place ys minuend).Within minuend.length := by
  induction ys generalizing place minuend with
  | nil => exact Walk.within_done _ _
  | cons y ys ih =>
    rw [subtractFrom]
    split_ifs with hp hxy
    · apply Walk.Within.after _ hp
      apply (borrowFrom_within (place + 1) minuend).andThen
      intro paid hpaid
      rw [← length_borrowFrom (place + 1) minuend paid hpaid]
      exact (ih (place + 1) paid).above _
    · exact ((ih (place + 1) minuend).above _).after hp
    · exact Walk.within_outside _ place

/-- Limbs that others can be taken from: all are in range, and the minuend is no shorter and no
smaller. High zeros may stand on either. -/
structure Outweighs (base : Int) (xs ys : List Int) : Prop where
  minuend_inRange : InRange base xs
  subtrahend_inRange : InRange base ys
  length_le : ys.length ≤ xs.length
  value_le : value base ys ≤ value base xs

theorem outweighs_of_canonical {base : Nat} {xs ys : List Nat} (hb : 1 < base)
    (hx : Canonical base xs) (hy : Canonical base ys) (h : value base ys ≤ value base xs) :
    Outweighs base (xs.map Int.ofNat) (ys.map Int.ofNat) := by
  refine ⟨inRange_map_ofNat hx.limbs_lt, inRange_map_ofNat hy.limbs_lt, ?_, ?_⟩
  · rw [List.length_map, List.length_map, hx.eq_ofNat hb, hy.eq_ofNat hb]
    exact length_ofNat_mono hb h
  · rw [value_map_ofNat, value_map_ofNat]
    exact_mod_cast h

/-- Differences of raw limbs are exact, in range and as long as the minuend, and no place behind its
end is looked up, whenever the minuend outweighs the subtrahend. Canonical limbs of different numbers
always do so one way, and the comparison says which. -/
theorem difference_exact :
    (∀ {base : Int} {xs ys : List Int}, 1 < base → Outweighs base xs ys →
      ∃ zs, difference base xs ys = .ok zs ∧ (subtraction base xs ys).outcome = some zs ∧
        (∀ place ∈ (subtraction base xs ys).places, place < xs.length) ∧
        zs.length = xs.length ∧ InRange base zs ∧
        value base zs = value base xs - value base ys) ∧
    ∀ {base : Nat} {xs ys : List Nat}, 1 < base → Canonical base xs → Canonical base ys →
      (compare xs ys = .gt → Outweighs base (xs.map Int.ofNat) (ys.map Int.ofNat)) ∧
      (compare xs ys = .lt → Outweighs base (ys.map Int.ofNat) (xs.map Int.ofNat)) := by
  constructor
  · intro base xs ys hb h
    obtain ⟨zs, hzs, hrange, hlength⟩ := exists_sub (by omega) h.minuend_inRange
      h.subtrahend_inRange h.length_le h.value_le
    have hvalue := value_sub hzs
    have hloops := (subtraction_outcome xs ys).trans hzs
    have hwithin := subtractFrom_within 0 ys xs zs hloops
    exact ⟨zs, by rw [difference, hzs], hloops, hwithin, hlength, hrange, by omega⟩
  · intro base xs ys hb hx hy
    have horder : compare xs ys = Ord.compare (value base xs) (value base ys) := by
      conv_lhs => rw [hx.eq_ofNat hb, hy.eq_ofNat hb]
      exact compare_ofNat hb _ _
    rw [horder, compare_gt_iff_gt, compare_lt_iff_lt]
    exact ⟨fun h => outweighs_of_canonical hb hx hy h.le,
      fun h => outweighs_of_canonical hb hy hx h.le⟩

theorem difference_exact_thousand :
    Outweighs 10 [0, 0, 0, 1, 0] [1, 9] ∧
    difference 10 [0, 0, 0, 1, 0] [1, 9] = .ok [9, 0, 9, 0, 0] ∧
    (subtraction 10 [0, 0, 0, 1, 0] [1, 9]).places = [0, 1, 2, 3, 1] ∧
    (∀ place ∈ (subtraction 10 [0, 0, 0, 1, 0] [1, 9]).places, place < 5) ∧
    Canonical 10 [0, 1] ∧ Canonical 10 [1] ∧ Outweighs 10 [0, 1] [1] := by
  have hlarge : Outweighs 10 [0, 0, 0, 1, 0] [1, 9] :=
    ⟨by simp, by simp, by decide, by decide⟩
  have hten : Canonical 10 [0, 1] := ⟨by simp, by simp, by simp⟩
  have hone : Canonical 10 [1] := ⟨by simp, by simp, by simp⟩
  obtain ⟨zs, hzs, -, hwithin, -⟩ := difference_exact.1 (by decide) hlarge
  obtain rfl : [9, 0, 9, 0, 0] = zs := Except.ok.inj (Eq.trans (by cbv) hzs)
  exact ⟨hlarge, hzs, by cbv, hwithin, hten, hone,
    (difference_exact.2 (by decide) hten hone).1 (by decide)⟩

end Radix.Limbs
