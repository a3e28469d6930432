import Radix.Proofs.Limbs.Product

namespace Radix.Limbs

variable {base : Nat}

/-- A place that is looked up in a buffer, and the total that is formed with the limb there and
leaves its remainder there. A place outside the buffer has no limb, and no total is formed. -/
structure Access where
  place : Nat
  total? : Option Nat
  deriving DecidableEq, Repr

/-- Work on a buffer: the buffer it leaves, unless it looked outside, and its accesses in order. -/
structure Sweep where
  outcome : Option (List Nat)
  accesses : List Access

namespace Sweep

def done (buffer : List Nat) : Sweep := ⟨some buffer, []⟩

def outside (place : Nat) : Sweep := ⟨none, [⟨place, none⟩]⟩

def after (total place : Nat) (s : Sweep) : Sweep := ⟨s.outcome, ⟨place, some total⟩ :: s.accesses⟩

def andThen (s : Sweep) (next : List Nat → Sweep) : Sweep :=
  match s.outcome with
  | none => s
  | some buffer => ⟨(next buffer).outcome, s.accesses ++ (next buffer).accesses⟩

end Sweep

def sweepCarry (base place carry : Nat) (buffer : List Nat) : Sweep :=
  if carry = 0 then .done buffer
  else if _ : place < buffer.length then
    let total := buffer[place] + carry
    .after total place
      (sweepCarry base (place + 1) (total / base) (buffer.set place (total % base)))
  else .outside place
termination_by buffer.length - place
decreasing_by
  rw [List.length_set]
  omega

def sweepRow (base m place carry : Nat) : List Nat → List Nat → Sweep
  | [], buffer => sweepCarry base place carry buffer
  | x :: xs, buffer =>
    if _ : place < buffer.length then
      let total := x * m + carry + buffer[place]
      .after total place
        (sweepRow base m (place + 1) (total / base) xs (buffer.set place (total % base)))
    else .outside place

/-- Adds a row for each limb of the second list, each one place above the last; a limb zero is
passed over. -/
def sweepRows (base : Nat) (xs : List Nat) (place : Nat) : List Nat → List Nat → Sweep
  | [], buffer => .done buffer
  | m :: ms, buffer =>
    (if m = 0 then Sweep.done buffer else sweepRow base m place 0 xs buffer).andThen
      (sweepRows base xs (place + 1) ms)

def sweep (base : Nat) (xs ys : List Nat) : Sweep :=
  sweepRows base xs 0 ys (List.replicate (xs.length + ys.length + 1) 0)

theorem sweepCarry_outcome (lower : List Nat) (c : Nat) (slots : List Nat) :
    (sweepCarry base lower.length c (lower ++ slots)).outcome =
      (ripple? base c slots).map (lower ++ ·) := by
  induction slots generalizing lower c with
  | nil =>
    cases c with
    | zero => simp [sweepCarry, ripple?, Sweep.done]
    | succ c => simp [sweepCarry, ripple?, Sweep.outside]
  | cons slot slots ih =>
    cases c with
    | zero => simp [sweepCarry, ripple?, Sweep.done]
    | succ c =>
      have hplace : lower.length < (lower ++ slot :: slots).length := by simp
      have hrest := ih (lower ++ [(slot + (c + 1)) % base]) ((slot + (c + 1)) / base)
      rw [List.length_append, List.length_singleton] at hrest
      rw [sweepCarry, if_neg (Nat.succ_ne_zero c), dif_pos hplace, getElem_append_place]
      simp only [Sweep.after, set_append_place, hrest, ripple?, Option.map_map]
      simp [Function.comp_def]

theorem sweepRow_outcome (m : Nat) (lower : List Nat) (c : Nat) (xs slots : List Nat) :
    (sweepRow base m lower.length c xs (lower ++ slots)).outcome =
      (addRow? base m c xs slots).map (lower ++ ·) := by
  induction xs generalizing lower c slots with
  | nil => exact sweepCarry_outcome lower c slots
  | cons x xs ih =>
    cases slots with
    | nil => simp [sweepRow, addRow?, Sweep.outside]
    | cons slot slots =>
      have hplace : lower.length < (lower ++ slot :: slots).length := by simp
      have hrest := ih (lower ++ [(x * m + c + slot) % base]) ((x * m + c + slot) / base) slots
      rw [List.length_append, List.length_singleton] at hrest
      rw [sweepRow, dif_pos hplace, getElem_append_place]
      simp only [Sweep.after, set_append_place, hrest, addRow?, Option.map_map]
      simp [Function.comp_def]

theorem sweepRows_outcome (xs : List Nat) (lower : List Nat) {ms slots : List Nat}
    (h : ms.length ≤ slots.length) :
    (sweepRows base xs lower.length ms (lower ++ slots)).outcome =
      (addRows? base xs ms slots).map (lower ++ ·) := by
  induction ms generalizing lower slots with
  | nil => rfl
  | cons m ms ih =>
    have hrow : (if m = 0 then Sweep.done (lower ++ slots)
        else sweepRow base m lower.length 0 xs (lower ++ slots)).outcome =
        (fillRow? base m xs slots).map (lower ++ ·) := by
      by_cases hm : m = 0
      · simp [hm, fillRow?, Sweep.done]
      · rw [if_neg hm, fillRow?, if_neg hm, sweepRow_outcome]
    rw [sweepRows, addRows?, Sweep.andThen, hrow]
    cases hf : fillRow? base m xs slots with
    | none => simpa [hf] using hrow
    | some filled =>
      have hlen := length_fillRow hf
      cases filled with
      | nil => rw [← hlen, List.length_nil, List.length_cons] at h; omega
      | cons slot rest =>
        rw [← hlen, List.length_cons, List.length_cons, Nat.add_le_add_iff_right] at h
        have hrest := ih (lower ++ [slot]) h
        rw [List.length_append, List.length_singleton, List.append_assoc, List.singleton_append]
          at hrest
        simp [hrest, Function.comp_def]

theorem sweep_outcome (xs ys : List Nat) : (sweep base xs ys).outcome = mul? base xs ys := by
  have hrows : ys.length ≤ (List.replicate (xs.length + ys.length + 1) 0).length := by
    rw [List.length_replicate]
    omega
  have hsweep : (sweep base xs ys).outcome = (mul? base xs ys).map ([] ++ ·) :=
    sweepRows_outcome xs [] hrows
  simpa using hsweep

/-- Work on a buffer of `n` limbs that, if it leaves a buffer, leaves one of `n` limbs and has
looked up no other places. -/
def Sweep.Within (n : Nat) (s : Sweep) : Prop :=
  ∀ buffer ∈ s.outcome, buffer.length = n ∧ ∀ access ∈ s.accesses, access.place < n

theorem Sweep.within_done (buffer : List Nat) : (done buffer).Within buffer.length := by
  rintro out ⟨⟩
  exact ⟨rfl, by simp [done]⟩

theorem Sweep.within_outside (n place : Nat) : (outside place).Within n := by
  rintro out ⟨⟩

theorem Sweep.Within.after {n place : Nat} {s : Sweep} (h : s.Within n) (total : Nat)
    (hp : place < n) : (s.after total place).Within n := by
  intro buffer hb
  obtain ⟨hlen, hall⟩ := h buffer hb
  exact ⟨hlen, List.forall_mem_cons.2 ⟨hp, hall⟩⟩

theorem Sweep.Within.andThen {n : Nat} {s : Sweep} {next : List Nat → Sweep} (h : s.Within n)
    (hnext : ∀ buffer : List Nat, buffer.length = n → (next buffer).Within n) :
    (s.andThen next).Within n := by
  intro out hout
  cases hs : s.outcome with
  | none => simp [Sweep.andThen, hs] at hout
  | some buffer =>
    obtain ⟨hlen, hall⟩ := h buffer hs
    simp only [Sweep.andThen, hs] at hout ⊢
    obtain ⟨hout, hrest⟩ := hnext buffer hlen out hout
    exact ⟨hout, List.forall_mem_append.2 ⟨hall, hrest⟩⟩

theorem sweepCarry_within (place c : Nat) (buffer : List Nat) :
    (sweepCarry base place c buffer).Within buffer.length := by
  fun_induction sweepCarry base place c buffer with
  | case1 => exact Sweep.within_done _
  | case2 place c buffer hc hp total ih =>
    rw [List.length_set] at ih
    exact ih.after total hp
  | case3 place => exact Sweep.within_outside _ place

theorem sweepRow_within (m place c : Nat) (xs buffer : List Nat) :
    (sweepRow base m place c xs buffer).Within buffer.length := by
  fun_induction sweepRow base m place c xs buffer with
  | case1 place c buffer => exact sweepCarry_within place c buffer
  | case2 place c x xs buffer hp total ih =>
    rw [List.length_set] at ih
    exact ih.after total hp
  | case3 place => exact Sweep.within_outside _ place

theorem sweepRows_within (xs : List Nat) (place : Nat) (ms buffer : List Nat) :
    (sweepRows base xs place ms buffer).Within buffer.length := by
  induction ms generalizing place buffer with
  | nil => exact Sweep.within_done buffer
  | cons m ms ih =>
    have hrow : (if m = 0 then Sweep.done buffer
        else sweepRow base m place 0 xs buffer).Within buffer.length := by
      by_cases hm : m = 0
      · rw [if_pos hm]
        exact Sweep.within_done buffer
      · rw [if_neg hm]
        exact sweepRow_within m place 0 xs buffer
    rw [sweepRows]
    apply hrow.andThen
    intro out hout
    rw [← hout]
    exact ih (place + 1) out

/-- The loops of a product of limbs in range stay within their buffer. -/
theorem exists_sweep {xs ys : List Nat} (hb : 1 < base) (hx : ∀ x ∈ xs, x < base)
    (hy : ∀ y ∈ ys, y < base) :
    ∃ zs, (sweep base xs ys).outcome = some zs ∧ zs.length = xs.length + ys.length + 1 ∧
      ∀ access ∈ (sweep base xs ys).accesses, access.place < xs.length + ys.length + 1 := by
  obtain ⟨zs, hz, -, -⟩ := exists_mul hb hx hy
  have hsweep := (sweep_outcome xs ys).trans hz
  have hwithin : (sweep base xs ys).Within (List.replicate (xs.length + ys.length + 1) 0).length :=
    sweepRows_within xs 0 ys _
  rw [List.length_replicate] at hwithin
  obtain ⟨hlen, hall⟩ := hwithin zs hsweep
  exact ⟨zs, hsweep, hlen, hall⟩

end Radix.Limbs
