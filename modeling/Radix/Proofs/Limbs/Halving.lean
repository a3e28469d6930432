import Mathlib.Order.Bounds.Basic
import Radix.Proofs.Limbs.Product

namespace Radix.Limbs

variable {base : Nat}

/-- What a search has left: the numbers from `low` on that are below `high`. -/
structure Interval where
  low : Nat
  high : Nat
  deriving DecidableEq, Repr

/-- The greatest number whose double is at most `n` lies in the interval. -/
def Interval.Covers (n : Nat) (i : Interval) : Prop := 2 * i.low ≤ n ∧ n < 2 * i.high

/-- The intervals of a search, one for each test of its loop. -/
def intervals (n low high : Nat) : List Interval :=
  ⟨low, high⟩ ::
    if 1 < high - low then
      if 2 * ((low + high) / 2) ≤ n then intervals n ((low + high) / 2) high
      else intervals n low ((low + high) / 2)
    else []
termination_by high - low
decreasing_by all_goals omega

/-- The search for one limb of a half: the remainder from the limb above, the number that it halves,
which is that remainder with the limb behind it, and its intervals. -/
structure LimbSearch where
  carried : Nat
  current : Nat
  intervals : List Interval
  deriving DecidableEq, Repr

namespace LimbSearch

def start (base r x : Nat) : LimbSearch := ⟨r, r * base + x, Limbs.intervals (r * base + x) 0 base⟩

def found (s : LimbSearch) : Nat := (s.intervals.getLast?.map Interval.low).getD 0

def remainder (s : LimbSearch) : Nat := s.current - 2 * s.found

end LimbSearch

/-- The searches for a half of limbs, given with the most significant first, behind a remainder; and
the remainder that the last one leaves. -/
def searches (base : Nat) : Nat → List Nat → List LimbSearch × Nat
  | r, [] => ([], r)
  | r, x :: xs =>
    let s := LimbSearch.start base r x
    let (rest, last) := searches base s.remainder xs
    (s :: rest, last)

theorem intervals_ne_nil (n low high : Nat) : intervals n low high ≠ [] := by
  rw [intervals]
  exact List.cons_ne_nil _ _

theorem getLast?_intervals (n low high : Nat) :
    (intervals n low high).getLast?.map Interval.low = some (bisect n low high) := by
  fun_induction bisect n low high with
  | case1 low high h hm ih =>
    rw [intervals, if_pos h, if_pos hm, List.getLast?_cons_of_ne_nil (intervals_ne_nil _ _ _), ih]
  | case2 low high h hm ih =>
    rw [intervals, if_pos h, if_neg hm, List.getLast?_cons_of_ne_nil (intervals_ne_nil _ _ _), ih]
  | case3 low high h =>
    rw [intervals, if_neg h]
    rfl

theorem found_start (base r x : Nat) :
    (LimbSearch.start base r x).found = bisect (r * base + x) 0 base := by
  rw [LimbSearch.found, LimbSearch.start, getLast?_intervals]
  rfl

theorem remainder_start (base r x : Nat) :
    (LimbSearch.start base r x).remainder =
      r * base + x - 2 * bisect (r * base + x) 0 base := by
  rw [LimbSearch.remainder, found_start]
  rfl

theorem searches_append (r : Nat) (xs ys : List Nat) :
    searches base r (xs ++ ys) =
      ((searches base r xs).1 ++ (searches base (searches base r xs).2 ys).1,
        (searches base (searches base r xs).2 ys).2) := by
  induction xs generalizing r with
  | nil => rfl
  | cons x xs ih =>
    rw [List.cons_append, searches, ih]
    rfl

theorem halve_eq_searches (xs : List Nat) :
    halve base xs = (((searches base 0 xs.reverse).1.map LimbSearch.found).reverse,
      (searches base 0 xs.reverse).2) := by
  induction xs with
  | nil => rfl
  | cons x xs ih =>
    rw [halve, ih, List.reverse_cons, searches_append]
    simp [searches, found_start, remainder_start]

theorem covers_of_mem_intervals {n low high : Nat} (h : Interval.Covers n ⟨low, high⟩) :
    ∀ i ∈ intervals n low high, i.Covers n := by
  fun_induction bisect n low high with
  | case1 low high hwide hm ih =>
    rw [intervals, if_pos hwide, if_pos hm]
    exact List.forall_mem_cons.2 ⟨h, ih ⟨hm, h.2⟩⟩
  | case2 low high hwide hm ih =>
    rw [intervals, if_pos hwide, if_neg hm]
    exact List.forall_mem_cons.2 ⟨h, ih ⟨h.1, not_le.1 hm⟩⟩
  | case3 low high hwide =>
    rw [intervals, if_neg hwide]
    exact List.forall_mem_singleton.2 h

/-- A search that carries a half exactly: its remainders are zero or one, no interval loses the number
sought, and it finds the greatest limb whose double is at most the current number. -/
structure LimbSearch.Exact (base : Nat) (s : LimbSearch) : Prop where
  carried_le_one : s.carried ≤ 1
  remainder_le_one : s.remainder ≤ 1
  covers : ∀ i ∈ s.intervals, i.Covers s.current
  greatest : IsGreatest {q | q < base ∧ 2 * q ≤ s.current} s.found

theorem exact_start {r x : Nat} (hr : r ≤ 1) (hx : x < base) :
    (LimbSearch.start base r x).Exact base := by
  have hcurrent := carried_lt hr hx
  refine ⟨hr, ?_, covers_of_mem_intervals ⟨Nat.zero_le _, hcurrent⟩, ?_⟩
  · rw [remainder_start, bisect_carried hr hx]
    omega
  · rw [found_start, bisect_carried hr hx]
    change IsGreatest {q | q < base ∧ 2 * q ≤ r * base + x} _
    constructor
    · exact ⟨by omega, by omega⟩
    · rintro q ⟨-, hq⟩
      omega

/-- Each search leaves the next one a remainder that is zero or one. -/
theorem exact_of_mem_searches {r : Nat} {xs : List Nat} (hr : r ≤ 1) (hx : ∀ x ∈ xs, x < base) :
    ∀ s ∈ (searches base r xs).1, s.Exact base := by
  induction xs generalizing r with
  | nil => simp [searches]
  | cons x xs ih =>
    obtain ⟨hx, hxs⟩ := List.forall_mem_cons.1 hx
    have hfirst := exact_start hr hx
    exact List.forall_mem_cons.2 ⟨hfirst, ih hfirst.remainder_le_one hxs⟩

end Radix.Limbs
