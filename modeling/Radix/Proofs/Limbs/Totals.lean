import Radix.Proofs.Limbs.Buffer

namespace Radix.Limbs

variable {base : Nat}

/-- What a product holds between two totals. -/
structure Register where
  carry : Nat
  buffer : List Nat
  deriving DecidableEq, Repr

/-- A total of a product of two limbs, the carry and the limb at the place. Where only the carry is
added, the product is that of zeros. -/
def Access.FormedFrom (base : Nat) (r : Register) (access : Access) : Prop :=
  ∃ x m slot, x < base ∧ m < base ∧ r.buffer[access.place]? = some slot ∧
    access.total? = some (x * m + r.carry + slot)

namespace Register

def next (base : Nat) (r : Register) (access : Access) : Register :=
  match access.total? with
  | none => r
  | some total => ⟨total / base, r.buffer.set access.place (total % base)⟩

/-- The registers of a run of accesses: the first one, and one behind each access. -/
def run (base : Nat) (r : Register) (accesses : List Access) : List Register :=
  accesses.scanl (next base) r

/-- Each total of a run of accesses is formed from what the one before it left. -/
def Accounts (base : Nat) : Register → List Access → Prop
  | _, [] => True
  | r, access :: accesses => access.FormedFrom base r ∧ (r.next base access).Accounts base accesses

theorem Accounts.append {r : Register} {xs ys : List Access} (hx : r.Accounts base xs)
    (hy : (xs.foldl (next base) r).Accounts base ys) : r.Accounts base (xs ++ ys) := by
  induction xs generalizing r with
  | nil => exact hy
  | cons x xs ih => exact ⟨hx.1, ih hx.2 hy⟩

end Register

theorem total_lt {x m c slot : Nat} (hx : x < base) (hm : m < base) (hc : c < base)
    (hs : slot < base) : x * m + c + slot < base ^ 2 := by
  obtain ⟨top, rfl⟩ := Nat.exists_eq_succ_of_ne_zero (Nat.ne_zero_of_lt hx)
  have hproduct : x * m ≤ top * top :=
    Nat.mul_le_mul (Nat.le_of_lt_succ hx) (Nat.le_of_lt_succ hm)
  calc x * m + c + slot ≤ top * top + top + top :=
        Nat.add_le_add (Nat.add_le_add hproduct (Nat.le_of_lt_succ hc)) (Nat.le_of_lt_succ hs)
    _ < (top + 1) ^ 2 := by
        rw [pow_two]
        linarith

def Access.Fits (base : Nat) (access : Access) : Prop :=
  ∃ total, access.total? = some total ∧ total < base ^ 2

structure Register.Fits (base : Nat) (r : Register) : Prop where
  carry_lt : r.carry < base
  limbs_lt : ∀ limb ∈ r.buffer, limb < base

theorem Access.FormedFrom.fits {r : Register} {access : Access} (h : access.FormedFrom base r)
    (hr : r.Fits base) : access.Fits base := by
  obtain ⟨x, m, slot, hx, hm, hslot, htotal⟩ := h
  exact ⟨_, htotal, total_lt hx hm hr.carry_lt (hr.limbs_lt slot (List.mem_of_getElem? hslot))⟩

theorem Register.Fits.next {r : Register} {access : Access} (h : r.Fits base)
    (ha : access.Fits base) : (r.next base access).Fits base := by
  obtain ⟨total, htotal, hlt⟩ := ha
  rw [pow_two] at hlt
  rw [Register.next, htotal]
  refine ⟨Nat.div_lt_of_lt_mul hlt, fun limb hlimb => ?_⟩
  rcases List.mem_or_eq_of_mem_set hlimb with hold | rfl
  · exact h.limbs_lt limb hold
  · exact Nat.mod_lt total (Nat.pos_of_lt_mul_left hlt)

theorem Register.Fits.run {r : Register} {accesses : List Access} (h : r.Fits base)
    (ha : r.Accounts base accesses) :
    (∀ access ∈ accesses, access.Fits base) ∧ ∀ s ∈ r.run base accesses, s.Fits base := by
  induction accesses generalizing r with
  | nil => exact ⟨by simp, List.forall_mem_singleton.2 h⟩
  | cons access accesses ih =>
    have hfirst := ha.1.fits h
    obtain ⟨htotals, hregisters⟩ := ih (h.next hfirst) ha.2
    rw [Register.run, List.scanl_cons]
    exact ⟨List.forall_mem_cons.2 ⟨hfirst, htotals⟩, List.forall_mem_cons.2 ⟨h, hregisters⟩⟩

/-- Work whose totals account for the buffer that it leaves, if it leaves one, with no carry left. -/
def Sweep.AccountsFrom (base : Nat) (r : Register) (s : Sweep) : Prop :=
  ∀ buffer ∈ s.outcome, r.Accounts base s.accesses ∧
    s.accesses.foldl (Register.next base) r = ⟨0, buffer⟩

theorem Sweep.accountsFrom_done (buffer : List Nat) :
    (done buffer).AccountsFrom base ⟨0, buffer⟩ := by
  rintro out ⟨⟩
  exact ⟨trivial, rfl⟩

theorem Sweep.accountsFrom_outside (r : Register) (place : Nat) :
    (outside place).AccountsFrom base r := by
  rintro out ⟨⟩

theorem Sweep.AccountsFrom.after {x m c place : Nat} {buffer : List Nat} {s : Sweep}
    (hx : x < base) (hm : m < base) (hp : place < buffer.length)
    (h : s.AccountsFrom base ⟨(x * m + c + buffer[place]) / base,
      buffer.set place ((x * m + c + buffer[place]) % base)⟩) :
    (s.after (x * m + c + buffer[place]) place).AccountsFrom base ⟨c, buffer⟩ := by
  intro out hout
  obtain ⟨haccounts, hlast⟩ := h out hout
  have hformed : Access.FormedFrom base ⟨c, buffer⟩ ⟨place, some (x * m + c + buffer[place])⟩ :=
    ⟨x, m, buffer[place], hx, hm, List.getElem?_eq_getElem hp, rfl⟩
  exact ⟨⟨hformed, haccounts⟩, hlast⟩

theorem Sweep.AccountsFrom.andThen {r : Register} {s : Sweep} {next : List Nat → Sweep}
    (h : s.AccountsFrom base r)
    (hnext : ∀ buffer : List Nat, (next buffer).AccountsFrom base ⟨0, buffer⟩) :
    (s.andThen next).AccountsFrom base r := by
  intro out hout
  cases hs : s.outcome with
  | none => simp [Sweep.andThen, hs] at hout
  | some buffer =>
    simp only [Sweep.andThen, hs] at hout ⊢
    obtain ⟨haccounts, hregister⟩ := h buffer hs
    obtain ⟨hrest, hlast⟩ := hnext buffer out hout
    rw [← hregister] at hrest
    exact ⟨haccounts.append hrest, by rw [List.foldl_append, hregister, hlast]⟩

theorem sweepCarry_accountsFrom (hb : 0 < base) (place c : Nat) (buffer : List Nat) :
    (sweepCarry base place c buffer).AccountsFrom base ⟨c, buffer⟩ := by
  fun_induction sweepCarry base place c buffer with
  | case1 => exact Sweep.accountsFrom_done _
  | case2 place c buffer hc hp total ih =>
    have htotal : total = 0 * 0 + c + buffer[place] := by omega
    rw [htotal] at ih ⊢
    exact Sweep.AccountsFrom.after hb hb hp ih
  | case3 place => exact Sweep.accountsFrom_outside _ place

theorem sweepRow_accountsFrom {m : Nat} (hm : m < base) (place c : Nat) (xs buffer : List Nat)
    (hx : ∀ x ∈ xs, x < base) :
    (sweepRow base m place c xs buffer).AccountsFrom base ⟨c, buffer⟩ := by
  fun_induction sweepRow base m place c xs buffer with
  | case1 place c buffer => exact sweepCarry_accountsFrom (Nat.zero_lt_of_lt hm) place c buffer
  | case2 place c x xs buffer hp total ih =>
    obtain ⟨hx, hxs⟩ := List.forall_mem_cons.1 hx
    exact Sweep.AccountsFrom.after hx hm hp (ih hxs)
  | case3 place => exact Sweep.accountsFrom_outside _ place

theorem sweepRows_accountsFrom {xs : List Nat} (hx : ∀ x ∈ xs, x < base) (place : Nat)
    (ms buffer : List Nat) (hm : ∀ m ∈ ms, m < base) :
    (sweepRows base xs place ms buffer).AccountsFrom base ⟨0, buffer⟩ := by
  induction ms generalizing place buffer with
  | nil => exact Sweep.accountsFrom_done buffer
  | cons m ms ih =>
    obtain ⟨hm, hms⟩ := List.forall_mem_cons.1 hm
    have hrow : (if m = 0 then Sweep.done buffer
        else sweepRow base m place 0 xs buffer).AccountsFrom base ⟨0, buffer⟩ := by
      by_cases hzero : m = 0
      · rw [if_pos hzero]
        exact Sweep.accountsFrom_done buffer
      · rw [if_neg hzero]
        exact sweepRow_accountsFrom hm place 0 xs buffer hx
    rw [sweepRows]
    exact hrow.andThen fun out => ih (place + 1) out hms

def Register.start (xs ys : List Nat) : Register :=
  ⟨0, List.replicate (xs.length + ys.length + 1) 0⟩

def registers (base : Nat) (xs ys : List Nat) : List Register :=
  (Register.start xs ys).run base (sweep base xs ys).accesses

/-- The totals of a product of limbs in range account for it and fit, and so do its registers. -/
theorem exists_registers {xs ys : List Nat} (hb : 1 < base) (hx : ∀ x ∈ xs, x < base)
    (hy : ∀ y ∈ ys, y < base) :
    ∃ zs, mul? base xs ys = some zs ∧
      (Register.start xs ys).Accounts base (sweep base xs ys).accesses ∧
      (registers base xs ys).getLast? = some ⟨0, zs⟩ ∧
      (∀ access ∈ (sweep base xs ys).accesses, access.Fits base) ∧
      ∀ r ∈ registers base xs ys, r.Fits base := by
  obtain ⟨zs, hz, -, -⟩ := exists_mul hb hx hy
  have hstart : (Register.start xs ys).Fits base := by
    refine ⟨Nat.zero_lt_of_lt hb, fun limb hlimb => ?_⟩
    rw [List.eq_of_mem_replicate hlimb]
    exact Nat.zero_lt_of_lt hb
  obtain ⟨haccounts, hlast⟩ := sweepRows_accountsFrom hx 0 ys _ hy zs
    ((sweep_outcome xs ys).trans hz)
  refine ⟨zs, hz, haccounts, ?_, hstart.run haccounts⟩
  rw [registers, Register.run, List.getLast?_scanl]
  exact congrArg some hlast

end Radix.Limbs
