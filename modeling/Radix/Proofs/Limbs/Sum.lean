import Radix.Limbs.Lemmas

namespace Radix.Limbs

/-- Limbs, kept as integers, that lie in `[0, base)`. -/
def InRange (base : Int) (xs : List Int) : Prop := ∀ x ∈ xs, 0 ≤ x ∧ x < base

variable {base : Int}

@[simp] theorem inRange_nil : InRange base [] := fun _ h => absurd h List.not_mem_nil

@[simp] theorem inRange_cons {x : Int} {xs : List Int} :
    InRange base (x :: xs) ↔ (0 ≤ x ∧ x < base) ∧ InRange base xs :=
  List.forall_mem_cons

theorem InRange.nonneg {xs : List Int} (h : InRange base xs) : ∀ x ∈ xs, 0 ≤ x :=
  fun x hx => (h x hx).1

theorem inRange_map_ofNat {b : Nat} {xs : List Nat} (h : ∀ x ∈ xs, x < b) :
    InRange b (xs.map Int.ofNat) := by
  intro z hz
  obtain ⟨x, hx, rfl⟩ := List.mem_map.1 hz
  have := h x hx
  exact ⟨Int.natCast_nonneg x, Int.ofNat_lt.2 this⟩

theorem InRange.exists_nat {b : Nat} {xs : List Int} (h : InRange b xs) :
    ∃ ns : List Nat, xs = ns.map Int.ofNat ∧ ∀ n ∈ ns, n < b := by
  induction xs with
  | nil => exact ⟨[], rfl, by simp⟩
  | cons x xs ih =>
    obtain ⟨⟨hx, hb⟩, hxs⟩ := inRange_cons.1 h
    obtain ⟨ns, rfl, hns⟩ := ih hxs
    obtain ⟨n, rfl⟩ := Int.eq_ofNat_of_zero_le hx
    exact ⟨n :: ns, rfl, List.forall_mem_cons.2 ⟨Int.ofNat_lt.1 hb, hns⟩⟩

/-- A limb that lies outside `[0, base)` while all limbs below it are in range. -/
structure LowestOutside (base : Int) (xs : List Int) (x : Int) : Prop where
  outside : x < 0 ∨ base ≤ x
  below_inRange : ∃ lower upper, xs = lower ++ x :: upper ∧ InRange base lower

theorem LowestOutside.mem {xs : List Int} {x : Int} (h : LowestOutside base xs x) : x ∈ xs := by
  obtain ⟨lower, upper, rfl, -⟩ := h.below_inRange
  simp

theorem find?_outside_eq_none_iff {xs : List Int} :
    (xs.find? fun x : Int => decide (x < 0 ∨ base ≤ x)) = none ↔ InRange base xs := by
  simp only [List.find?_eq_none, decide_eq_true_eq, not_or, not_lt, not_le, InRange]

theorem find?_outside_eq_some_iff {xs : List Int} {x : Int} :
    (xs.find? fun x : Int => decide (x < 0 ∨ base ≤ x)) = some x ↔ LowestOutside base xs x := by
  have hbelow (lower : List Int) :
      (∀ y ∈ lower, (!decide (y < 0 ∨ base ≤ y)) = true) ↔ InRange base lower := by
    simp only [Bool.not_eq_true', decide_eq_false_iff_not, not_or, not_lt, not_le, InRange]
  rw [List.find?_eq_some_iff_append]
  simp only [hbelow, decide_eq_true_eq]
  constructor
  · rintro ⟨houtside, hsplit⟩
    exact ⟨houtside, hsplit⟩
  · rintro ⟨houtside, hsplit⟩
    exact ⟨houtside, hsplit⟩

theorem exists_lowestOutside_iff {xs : List Int} :
    (∃ x, LowestOutside base xs x) ↔ ¬ InRange base xs := by
  rw [← find?_outside_eq_none_iff, ← ne_eq, Option.ne_none_iff_exists']
  exact exists_congr fun x => find?_outside_eq_some_iff.symm

theorem value_nonneg {xs : List Int} (hb : 0 < base) (h : ∀ x ∈ xs, 0 ≤ x) : 0 ≤ value base xs := by
  induction xs with
  | nil => exact le_rfl
  | cons x xs ih =>
    obtain ⟨hx, hxs⟩ := List.forall_mem_cons.1 h
    rw [value_cons]
    exact add_nonneg hx (mul_nonneg hb.le (ih hxs))

theorem fmod_inRange (hb : 0 < base) (n : Int) : 0 ≤ n.fmod base ∧ n.fmod base < base :=
  ⟨Int.fmod_nonneg_of_pos n hb, Int.fmod_lt_of_pos n hb⟩

theorem carry_le_one (hb : 0 < base) {n : Int} (hn : 0 ≤ n) (h : n < 2 * base) :
    0 ≤ n.fdiv base ∧ n.fdiv base ≤ 1 := by
  rw [Int.fdiv_eq_ediv_of_nonneg _ hb.le]
  have hlt : n / base < 2 := Int.ediv_lt_of_lt_mul hb h
  exact ⟨Int.ediv_nonneg hn hb.le, by omega⟩

/-- A sum of `v` on `n` limbs: the limbs that the loop leaves, and its last carry, which is zero or
one and becomes a limb of its own if it is not zero. -/
def CarriesTo (base : Int) (zs : List Int) (n : Nat) (v : Int) : Prop :=
  ∃ low top, zs = low ++ (if 0 < top then [top] else []) ∧ low.length = n ∧ InRange base low ∧
    0 ≤ top ∧ top ≤ 1 ∧ value base low + base ^ n * top = v

/-- One turn of the loop: what the total leaves is in range, and its carry is added to the limbs
above. -/
theorem CarriesTo.cons {zs : List Int} {n : Nat} {t v w : Int} (hb : 0 < base)
    (h : CarriesTo base zs n w) (hv : t.fmod base + base * w = v) :
    CarriesTo base (t.fmod base :: zs) (n + 1) v := by
  obtain ⟨low, top, rfl, hlength, hrange, hpos, hone, hvalue⟩ := h
  refine ⟨t.fmod base :: low, top, rfl, by rw [List.length_cons, hlength],
    inRange_cons.2 ⟨fmod_inRange hb t, hrange⟩, hpos, hone, ?_⟩
  rw [← hv, ← hvalue, value_cons, pow_succ]
  ring

theorem addCarry_carriesTo {c : Int} {xs ys : List Int} (hb : 1 < base) (hc : 0 ≤ c ∧ c ≤ 1)
    (hx : InRange base xs) (hy : InRange base ys) :
    CarriesTo base (addCarry base c xs ys) (max xs.length ys.length)
      (c + value base xs + value base ys) := by
  have hpos : 0 < base := by omega
  fun_induction addCarry base c xs ys with
  | case1 c h => exact ⟨[], c, by rw [if_pos h]; rfl, rfl, inRange_nil, hc.1, hc.2, by simp⟩
  | case2 c h => exact ⟨[], c, by rw [if_neg h]; rfl, rfl, inRange_nil, hc.1, hc.2, by simp⟩
  | case3 c x xs ih =>
    obtain ⟨hx, hxs⟩ := inRange_cons.1 hx
    have hrest := ih (carry_le_one hpos (by omega) (by omega)) hxs hy
    have hsplit := Int.fmod_add_mul_fdiv (c + x) base
    rw [List.length_nil, Nat.max_zero] at hrest ⊢
    apply hrest.cons hpos
    rw [value_cons, value_nil]
    linarith
  | case4 c y ys ih =>
    obtain ⟨hy, hys⟩ := inRange_cons.1 hy
    have hrest := ih (carry_le_one hpos (by omega) (by omega)) hx hys
    have hsplit := Int.fmod_add_mul_fdiv (c + y) base
    rw [List.length_nil, Nat.zero_max] at hrest ⊢
    apply hrest.cons hpos
    rw [value_cons, value_nil]
    linarith
  | case5 c x xs y ys ih =>
    obtain ⟨hx, hxs⟩ := inRange_cons.1 hx
    obtain ⟨hy, hys⟩ := inRange_cons.1 hy
    have hrest := ih (carry_le_one hpos (by omega) (by omega)) hxs hys
    have hsplit := Int.fmod_add_mul_fdiv (c + x + y) base
    rw [List.length_cons, List.length_cons, Nat.succ_max_succ]
    apply hrest.cons hpos
    rw [value_cons, value_cons]
    linarith

theorem inRange_add {xs ys : List Int} (hb : 1 < base) (hx : InRange base xs)
    (hy : InRange base ys) : InRange base (add base xs ys) := by
  obtain ⟨low, top, hlimbs, -, hrange, hpos, hone, -⟩ :=
    addCarry_carriesTo hb ⟨le_rfl, zero_le_one⟩ hx hy
  have htop : InRange base (if 0 < top then [top] else []) := by
    split_ifs
    · exact inRange_cons.2 ⟨by omega, inRange_nil⟩
    · exact inRange_nil
  rw [add, hlimbs]
  exact List.forall_mem_append.2 ⟨hrange, htop⟩

theorem value_add {xs ys : List Int} (hb : 1 < base) (hx : InRange base xs)
    (hy : InRange base ys) : value base (add base xs ys) = value base xs + value base ys := by
  obtain ⟨low, top, hlimbs, hlength, -, hpos, -, hvalue⟩ :=
    addCarry_carriesTo hb ⟨le_rfl, zero_le_one⟩ hx hy
  rw [zero_add] at hvalue
  rw [add, hlimbs, value_append, hlength, ← hvalue]
  split_ifs with htop
  · simp
  · simp [show top = 0 by omega]

theorem exists_borrow {xs : List Int} (hb : 0 < base) (hx : InRange base xs)
    (hv : 0 < value base xs) :
    ∃ zs, borrow? base xs = some zs ∧ InRange base zs ∧ zs.length = xs.length := by
  induction xs with
  | nil => simp at hv
  | cons x xs ih =>
    obtain ⟨hx, hxs⟩ := inRange_cons.1 hx
    by_cases hz : x = 0
    · -- the borrow walks up, as the value is in the limbs above
      subst hz
      have hpos : 0 < value base xs := by
        rw [value_cons, zero_add] at hv
        exact pos_of_mul_pos_right hv hb.le
      obtain ⟨zs, hzs, hr, hl⟩ := ih hxs hpos
      refine ⟨(base - 1) :: zs, by rw [borrow?, if_pos rfl, hzs]; rfl, ?_, by simp [hl]⟩
      exact inRange_cons.2 ⟨by omega, hr⟩
    · refine ⟨(x - 1) :: xs, by rw [borrow?, if_neg hz], ?_, rfl⟩
      exact inRange_cons.2 ⟨by omega, hxs⟩

/-- The greater number less the smaller one. What is left of the minuend stays at least what is left
of the subtrahend, also after a borrow has changed limbs that are still to be read. -/
theorem exists_sub {xs ys : List Int} (hb : 0 < base) (hx : InRange base xs) (hy : InRange base ys)
    (hl : ys.length ≤ xs.length) (hv : value base ys ≤ value base xs) :
    ∃ zs, sub? base xs ys = some zs ∧ InRange base zs ∧ zs.length = xs.length := by
  induction ys generalizing xs with
  | nil => exact ⟨xs, by cases xs <;> rfl, hx, rfl⟩
  | cons y ys ih =>
    cases xs with
    | nil => simp at hl
    | cons x xs =>
      obtain ⟨hx, hxs⟩ := inRange_cons.1 hx
      obtain ⟨hy, hys⟩ := inRange_cons.1 hy
      rw [List.length_cons, List.length_cons, Nat.add_le_add_iff_right] at hl
      rw [value_cons, value_cons] at hv
      by_cases hxy : x < y
      · -- the limbs above must be the greater ones, so they can be borrowed from
        have hlt : value base ys < value base xs := by
          have hm : base * value base ys < base * value base xs := by omega
          exact lt_of_mul_lt_mul_left hm hb.le
        have hpos : 0 < value base xs := (value_nonneg hb hys.nonneg).trans_lt hlt
        obtain ⟨above, ha, har, hal⟩ := exists_borrow hb hxs hpos
        have hle : value base ys ≤ value base above := by
          have := value_borrow ha
          omega
        obtain ⟨rest, hr, hrr, hrl⟩ := ih har hys (hal ▸ hl) hle
        refine ⟨(x + base - y) :: rest, by simp [sub?, hxy, ha, hr], ?_, by simp [hrl, hal]⟩
        exact inRange_cons.2 ⟨by omega, hrr⟩
      · have hle : value base ys ≤ value base xs := by
          have hm : base * value base ys < base * (value base xs + 1) := by
            rw [mul_add, mul_one]
            omega
          have := lt_of_mul_lt_mul_left hm hb.le
          omega
        obtain ⟨rest, hr, hrr, hrl⟩ := ih hxs hys hl hle
        refine ⟨(x - y) :: rest, by simp [sub?, hxy, hr], ?_, by simp [hrl]⟩
        exact inRange_cons.2 ⟨by omega, hrr⟩

end Radix.Limbs
