import Radix.Limbs.Lemmas

namespace Radix.Limbs

variable {base : Nat}

theorem carry_lt_of_lt {t v k : Nat} (h : t + base * v < base * k) : t / base + v < k := by
  have hb : 0 < base := by
    rcases Nat.eq_zero_or_pos base with rfl | hb
    · simp at h
    · exact hb
  rw [← Nat.add_mul_div_left t v hb]
  exact Nat.div_lt_of_lt_mul h

theorem exists_ripple {c : Nat} {slots : List Nat} (hb : 0 < base) (hs : ∀ s ∈ slots, s < base)
    (hv : c + value base slots < base ^ slots.length) :
    ∃ zs, ripple? base c slots = some zs ∧ ∀ z ∈ zs, z < base := by
  induction slots generalizing c with
  | nil =>
    obtain rfl : c = 0 := by simpa using hv
    exact ⟨[], rfl, by simp⟩
  | cons slot slots ih =>
    obtain ⟨hslot, hslots⟩ := List.forall_mem_cons.1 hs
    cases c with
    | zero => exact ⟨slot :: slots, rfl, hs⟩
    | succ c =>
      rw [value_cons, List.length_cons, Nat.pow_succ', ← Nat.add_assoc, Nat.add_comm (c + 1)] at hv
      obtain ⟨zs, hz, hr⟩ := ih hslots (carry_lt_of_lt hv)
      refine ⟨(slot + (c + 1)) % base :: zs, by rw [ripple?, hz]; rfl, ?_⟩
      exact List.forall_mem_cons.2 ⟨Nat.mod_lt _ hb, hr⟩

theorem exists_addRow {m c : Nat} {xs slots : List Nat} (hb : 0 < base)
    (hs : ∀ s ∈ slots, s < base) (hl : xs.length ≤ slots.length)
    (hv : c + m * value base xs + value base slots < base ^ slots.length) :
    ∃ zs, addRow? base m c xs slots = some zs ∧ ∀ z ∈ zs, z < base := by
  induction xs generalizing c slots with
  | nil => exact exists_ripple hb hs (by simpa using hv)
  | cons x xs ih =>
    cases slots with
    | nil => simp at hl
    | cons slot slots =>
      obtain ⟨hslot, hslots⟩ := List.forall_mem_cons.1 hs
      have hrest : (x * m + c + slot) / base + (m * value base xs + value base slots) <
          base ^ slots.length := by
        apply carry_lt_of_lt
        rw [value_cons, value_cons, List.length_cons, Nat.pow_succ'] at hv
        linarith
      obtain ⟨zs, hz, hr⟩ := ih hslots (by simpa using hl) (by rwa [Nat.add_assoc])
      refine ⟨(x * m + c + slot) % base :: zs, by rw [addRow?, hz]; rfl, ?_⟩
      exact List.forall_mem_cons.2 ⟨Nat.mod_lt _ hb, hr⟩

theorem exists_fillRow {m : Nat} {xs slots : List Nat} (hb : 0 < base)
    (hs : ∀ s ∈ slots, s < base) (hl : xs.length ≤ slots.length)
    (hv : m * value base xs + value base slots < base ^ slots.length) :
    ∃ zs, fillRow? base m xs slots = some zs ∧ ∀ z ∈ zs, z < base := by
  by_cases hm : m = 0
  · exact ⟨slots, by rw [fillRow?, if_pos hm], hs⟩
  · rw [fillRow?, if_neg hm]
    exact exists_addRow hb hs hl (by rwa [Nat.zero_add])

/-- A buffer that can hold the product can hold all its rows. After a row, the buffer above the row's
place can still hold the product with the limbs that are left. -/
theorem exists_addRows {xs ms slots : List Nat} (hb : 0 < base) (hs : ∀ s ∈ slots, s < base)
    (hl : xs.length + ms.length ≤ slots.length)
    (hv : value base xs * value base ms + value base slots < base ^ slots.length) :
    ∃ zs, addRows? base xs ms slots = some zs ∧ ∀ z ∈ zs, z < base := by
  induction ms generalizing slots with
  | nil => exact ⟨slots, rfl, hs⟩
  | cons m ms ih =>
    have hsum : value base xs * value base (m :: ms) + value base slots =
        m * value base xs + value base slots + base * (value base xs * value base ms) := by
      rw [value_cons]
      ring
    rw [hsum] at hv
    rw [List.length_cons] at hl
    have hrow : m * value base xs + value base slots < base ^ slots.length :=
      (Nat.le_add_right _ _).trans_lt hv
    obtain ⟨filled, hf, hr⟩ := exists_fillRow hb hs (by omega) hrow
    have hval := value_fillRow hf
    have hlen := length_fillRow hf
    cases filled with
    | nil => rw [List.length_nil] at hlen; omega
    | cons slot rest =>
      obtain ⟨hslot, hrest⟩ := List.forall_mem_cons.1 hr
      rw [List.length_cons] at hlen
      rw [value_cons] at hval
      have hfits : value base xs * value base ms + value base rest < base ^ rest.length := by
        rw [← hlen, Nat.pow_succ', ← hval] at hv
        have hm : base * (value base xs * value base ms + value base rest) <
            base * base ^ rest.length := by
          rw [Nat.mul_add]
          omega
        exact lt_of_mul_lt_mul_left hm hb.le
      obtain ⟨zs, hz, hzr⟩ := ih hrest (by omega) hfits
      refine ⟨slot :: zs, by simp [addRows?, hf, hz], ?_⟩
      exact List.forall_mem_cons.2 ⟨hslot, hzr⟩

theorem exists_mul {xs ys : List Nat} (hb : 1 < base) (hx : ∀ x ∈ xs, x < base)
    (hy : ∀ y ∈ ys, y < base) :
    ∃ zs, mul? base xs ys = some zs ∧ (∀ z ∈ zs, z < base) ∧
      value base zs = value base xs * value base ys := by
  have hlen : (List.replicate (xs.length + ys.length + 1) 0).length =
      xs.length + ys.length + 1 := List.length_replicate
  have hzero : ∀ s ∈ List.replicate (xs.length + ys.length + 1) 0, s < base := by
    intro s hs
    rw [List.eq_of_mem_replicate hs]
    omega
  have hfits : value base xs * value base ys +
      value base (List.replicate (xs.length + ys.length + 1) 0) <
      base ^ (List.replicate (xs.length + ys.length + 1) 0).length := by
    rw [value_replicate_zero, hlen, Nat.add_zero]
    calc value base xs * value base ys
        < base ^ xs.length * base ^ ys.length :=
          Nat.mul_lt_mul'' (value_lt_pow hx) (value_lt_pow hy)
      _ = base ^ (xs.length + ys.length) := (pow_add ..).symm
      _ ≤ base ^ (xs.length + ys.length + 1) := Nat.pow_le_pow_right (by omega) (by omega)
  obtain ⟨zs, hz, hr⟩ := exists_addRows (by omega) hzero (by rw [hlen]; omega) hfits
  exact ⟨zs, hz, hr, value_mul hz⟩

theorem bisect_eq_half {n low high : Nat} (hlow : 2 * low ≤ n) (hhigh : n < 2 * high) :
    bisect n low high = n / 2 := by
  fun_induction bisect n low high with
  | case1 low high h hm ih => exact ih hm hhigh
  | case2 low high h hm ih => exact ih hlow (by omega)
  | case3 low high h => omega

theorem carried_lt {r x : Nat} (hr : r ≤ 1) (hx : x < base) : r * base + x < 2 * base := by
  nlinarith

theorem bisect_carried {r x : Nat} (hr : r ≤ 1) (hx : x < base) :
    bisect (r * base + x) 0 base = (r * base + x) / 2 :=
  bisect_eq_half (Nat.zero_le _) (carried_lt hr hx)

theorem halve_spec {xs : List Nat} (hx : ∀ x ∈ xs, x < base) :
    value base (halve base xs).1 = value base xs / 2 ∧ (halve base xs).2 = value base xs % 2 ∧
      ∀ q ∈ (halve base xs).1, q < base := by
  induction xs with
  | nil => simp [halve]
  | cons x xs ih =>
    obtain ⟨hx, hxs⟩ := List.forall_mem_cons.1 hx
    obtain ⟨hv, hr, hq⟩ := ih hxs
    -- the remainder is a remainder by two, so the search interval covers the current limb
    have hone : (halve base xs).2 ≤ 1 := by omega
    have hcur := carried_lt hone hx
    have hhalf := bisect_carried hone hx
    have hsplit : value base (x :: xs) =
        2 * (base * (value base xs / 2)) + ((halve base xs).2 * base + x) := by
      rw [value_cons, hr]
      conv_lhs => rw [← Nat.div_add_mod (value base xs) 2]
      ring
    refine ⟨?_, ?_, ?_⟩
    · rw [hsplit]
      simp only [halve, hhalf, value_cons, hv]
      omega
    · rw [hsplit]
      simp only [halve, hhalf]
      omega
    · simp only [halve, hhalf]
      exact List.forall_mem_cons.2 ⟨by omega, hq⟩

end Radix.Limbs
