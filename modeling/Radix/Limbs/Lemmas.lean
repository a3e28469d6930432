import Mathlib.Tactic.Linarith
import Mathlib.Tactic.Ring
import Radix.Limbs.Arithmetic
import Radix.Limbs.Recast

namespace Radix.Limbs

section

variable {α : Type}

theorem getElem_append_place (lower : List α) (slot : α) (slots : List α)
    (h : lower.length < (lower ++ slot :: slots).length) :
    (lower ++ slot :: slots)[lower.length] = slot := by
  simp

theorem set_append_place (lower : List α) (slot t : α) (slots : List α) :
    (lower ++ slot :: slots).set lower.length t = (lower ++ [t]) ++ slots := by
  simp

end

section

variable {α : Type} [Add α] [Mul α] [OfNat α 0]

@[simp] theorem value_nil (base : α) : value base [] = 0 := rfl

@[simp] theorem value_cons (base x : α) (xs : List α) :
    value base (x :: xs) = x + base * value base xs := rfl

end

theorem value_map_ofNat (base : Nat) (xs : List Nat) :
    value (base : Int) (xs.map Int.ofNat) = value base xs := by
  induction xs with
  | nil => rfl
  | cons x xs ih => simp [ih]

theorem value_append {R : Type} [CommSemiring R] (base : R) (xs ys : List R) :
    value base (xs ++ ys) = value base xs + base ^ xs.length * value base ys := by
  induction xs with
  | nil => simp
  | cons x xs ih => simp only [List.cons_append, value_cons, ih, List.length_cons, pow_succ]; ring

theorem value_replicate_zero (base n : Nat) : value base (List.replicate n 0) = 0 := by
  induction n with
  | zero => rfl
  | succ n ih => simp [List.replicate_succ, ih]

theorem value_lt_pow {base : Nat} {xs : List Nat} (h : ∀ x ∈ xs, x < base) :
    value base xs < base ^ xs.length := by
  induction xs with
  | nil => simp
  | cons x xs ih =>
    have hx := h x (by simp)
    have hxs := ih fun y hy => h y (by simp [hy])
    calc value base (x :: xs) < base + base * value base xs := Nat.add_lt_add_right hx _
      _ = base * (value base xs + 1) := by ring
      _ ≤ base * base ^ xs.length := Nat.mul_le_mul_left base hxs
      _ = base ^ (x :: xs).length := by rw [List.length_cons, pow_succ, Nat.mul_comm]

theorem valueFrom_append (radix a : Nat) (xs ys : List Nat) :
    valueFrom radix a (xs ++ ys) = valueFrom radix (valueFrom radix a xs) ys := by
  induction xs generalizing a with
  | nil => rfl
  | cons x xs ih => exact ih _

theorem valueFrom_reverse (base : Nat) (xs : List Nat) :
    valueFrom base 0 xs.reverse = value base xs := by
  induction xs with
  | nil => rfl
  | cons x xs ih =>
    rw [List.reverse_cons, valueFrom_append, ih, value_cons, valueFrom, valueFrom, Nat.mul_comm,
      Nat.add_comm]

theorem value_split {base : Nat} (h : 1 < base) (n : Nat) : value base (split base n) = n := by
  fun_induction split base n with
  | case1 n hn => simp only [value_nil]; omega
  | case2 n hn ih => rw [value_cons, ih, Nat.mod_add_div]

theorem value_ofNat {base : Nat} (h : 1 < base) (n : Nat) : value base (ofNat base n) = n := by
  conv_rhs => rw [← value_split h n]
  unfold ofNat
  cases split base n <;> rfl

theorem value_borrow {base : Int} {xs ys : List Int} (hb : borrow? base xs = some ys) :
    value base ys + 1 = value base xs := by
  induction xs generalizing ys with
  | nil => simp [borrow?] at hb
  | cons x xs ih =>
    by_cases hx : x = 0
    · subst hx
      obtain ⟨zs, hz, rfl⟩ := Option.map_eq_some_iff.1 (by simpa [borrow?] using hb)
      simp only [value_cons, ← ih hz]
      ring
    · obtain rfl : (x - 1) :: xs = ys := by simpa [borrow?, hx] using hb
      simp only [value_cons]
      ring

theorem value_sub {base : Int} {xs ys zs : List Int} (hs : sub? base xs ys = some zs) :
    value base zs + value base ys = value base xs := by
  induction ys generalizing xs zs with
  | nil =>
    cases xs <;> cases hs <;> simp
  | cons y ys ih =>
    cases xs with
    | nil => simp [sub?] at hs
    | cons x xs =>
      rw [sub?] at hs
      split at hs
      · obtain ⟨above, ha, hs⟩ := Option.bind_eq_some_iff.1 hs
        obtain ⟨rest, hr, hs⟩ := Option.bind_eq_some_iff.1 hs
        cases hs
        simp only [value_cons, ← value_borrow ha, ← ih hr]
        ring
      · obtain ⟨rest, hr, hs⟩ := Option.bind_eq_some_iff.1 hs
        cases hs
        simp only [value_cons, ← ih hr]
        ring

theorem value_ripple {base c : Nat} {slots zs : List Nat} (h : ripple? base c slots = some zs) :
    value base zs = c + value base slots := by
  induction slots generalizing c zs with
  | nil =>
    cases c with
    | zero => cases h; simp
    | succ c => simp [ripple?] at h
  | cons slot slots ih =>
    cases c with
    | zero => cases h; simp
    | succ c =>
      obtain ⟨ws, hw, rfl⟩ := Option.map_eq_some_iff.1 h
      have := Nat.mod_add_div (slot + (c + 1)) base
      rw [value_cons, ih hw, value_cons]
      linarith

theorem value_addRow {base m c : Nat} {xs slots zs : List Nat}
    (h : addRow? base m c xs slots = some zs) :
    value base zs = c + m * value base xs + value base slots := by
  induction xs generalizing c slots zs with
  | nil => simpa using value_ripple h
  | cons x xs ih =>
    cases slots with
    | nil => simp [addRow?] at h
    | cons slot slots =>
      obtain ⟨ws, hw, rfl⟩ := Option.map_eq_some_iff.1 h
      have := Nat.mod_add_div (x * m + c + slot) base
      simp only [value_cons, ih hw]
      linarith

theorem value_fillRow {base m : Nat} {xs slots zs : List Nat}
    (h : fillRow? base m xs slots = some zs) :
    value base zs = m * value base xs + value base slots := by
  rw [fillRow?] at h
  split at h
  · cases h; simp [*]
  · simpa using value_addRow h

theorem length_ripple {base c : Nat} {slots zs : List Nat} (h : ripple? base c slots = some zs) :
    zs.length = slots.length := by
  induction slots generalizing c zs with
  | nil => cases c <;> simp_all [ripple?]
  | cons slot slots ih =>
    cases c with
    | zero => cases h; rfl
    | succ c =>
      obtain ⟨ws, hw, rfl⟩ := Option.map_eq_some_iff.1 h
      simp [ih hw]

theorem length_addRow {base m c : Nat} {xs slots zs : List Nat}
    (h : addRow? base m c xs slots = some zs) : zs.length = slots.length := by
  induction xs generalizing c slots zs with
  | nil => exact length_ripple (by simpa [addRow?] using h)
  | cons x xs ih =>
    cases slots with
    | nil => simp [addRow?] at h
    | cons slot slots =>
      obtain ⟨ws, hw, rfl⟩ := Option.map_eq_some_iff.1 h
      simp [ih hw]

theorem length_fillRow {base m : Nat} {xs slots zs : List Nat}
    (h : fillRow? base m xs slots = some zs) : zs.length = slots.length := by
  rw [fillRow?] at h
  split at h
  · cases h; rfl
  · exact length_addRow h

theorem length_addRows {base : Nat} {xs ms slots zs : List Nat}
    (h : addRows? base xs ms slots = some zs) : zs.length = slots.length := by
  induction ms generalizing slots zs with
  | nil => cases h; rfl
  | cons m ms ih =>
    obtain ⟨filled, hf, h⟩ := Option.bind_eq_some_iff.1 h
    rw [← length_fillRow hf]
    cases filled with
    | nil => exact ih h
    | cons slot rest =>
      obtain ⟨ws, hw, rfl⟩ := Option.map_eq_some_iff.1 h
      simp [ih hw]

theorem value_addRows {base : Nat} {xs ms slots zs : List Nat}
    (h : addRows? base xs ms slots = some zs) :
    value base zs = value base xs * value base ms + value base slots := by
  induction ms generalizing slots zs with
  | nil => cases h; simp
  | cons m ms ih =>
    obtain ⟨filled, hf, h⟩ := Option.bind_eq_some_iff.1 h
    have hv := value_fillRow hf
    cases filled with
    | nil =>
      have hz := List.eq_nil_of_length_eq_zero (length_addRows h)
      have hp := ih h
      rw [hz, value_nil, Nat.add_zero] at hp
      rw [hz, value_nil, value_cons, Nat.mul_add, Nat.mul_left_comm, ← hp, Nat.mul_zero,
        Nat.add_zero, Nat.mul_comm, ← hv, value_nil]
    | cons slot rest =>
      obtain ⟨ws, hw, rfl⟩ := Option.map_eq_some_iff.1 h
      calc value base (slot :: ws)
          = value base (slot :: rest) + base * (value base xs * value base ms) := by
            rw [value_cons, ih hw, value_cons]
            ring
        _ = value base xs * value base (m :: ms) + value base slots := by
            rw [hv, value_cons]
            ring

theorem value_mul {base : Nat} {xs ys zs : List Nat} (h : mul? base xs ys = some zs) :
    value base zs = value base xs * value base ys := by
  rw [value_addRows h, value_replicate_zero, Nat.add_zero]

end Radix.Limbs
