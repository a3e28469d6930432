import Radix.Proofs.Number.Decimal

namespace Radix.Limbs

open Text

variable {base : Nat}

def behindZero (n : Nat) : Char := Char.ofNat ('0'.toNat + n)

/-- A step of long division: the remainder before it, and the digit of the quotient. -/
structure DivisionStep where
  remainder : Nat
  digit : Nat
  deriving DecidableEq, Repr

structure TextPass where
  steps : List DivisionStep
  quotient : List Char
  remainder : Nat
  deriving DecidableEq, Repr

def extend (quotient : List Char) (digit : Nat) : List Char :=
  if quotient = [] ∧ digit = 0 then [] else quotient ++ [behindZero digit]

def divideText (base : Nat) (quotient : List Char) (r : Nat) : List Char → TextPass
  | [] => ⟨[], quotient, r⟩
  | c :: cs =>
    let t := r * 10 + digitValue c
    let later := divideText base (extend quotient (t / base)) (t - t / base * base) cs
    ⟨⟨r, t / base⟩ :: later.steps, later.quotient, later.remainder⟩

/-- What the passes divide, one text after the other until no quotient is left, unless that takes
more than `fuel` passes. -/
def dividends? (base : Nat) : Nat → List Char → Option (List (List Char))
  | _, [] => some []
  | 0, _ :: _ => none
  | fuel + 1, c :: cs =>
    (dividends? base fuel (divideText base [] 0 (c :: cs)).quotient).map ((c :: cs) :: ·)

/-- The limbs that the passes leave; the limb zero if there was nothing to divide. -/
def remainders (base : Nat) (dividends : List (List Char)) : List Nat :=
  match dividends.map fun dividend => (divideText base [] 0 dividend).remainder with
  | [] => [0]
  | limbs => limbs

/-- ASCII digits without a leading zero that write the number; nothing writes zero. -/
structure Dividend (n : Nat) (cs : List Char) : Prop where
  all_digits : ∀ c ∈ cs, isDigit c
  no_leading_zero : cs.head? ≠ some '0'
  value_eq : decimalValue cs = n

theorem isDigit_behindZero {n : Nat} (h : n ≤ 9) : isDigit (behindZero n) := by
  interval_cases n <;> rfl

theorem digitValue_behindZero {n : Nat} (h : n ≤ 9) : digitValue (behindZero n) = n := by
  interval_cases n <;> rfl

theorem decimalValue_concat (cs : List Char) (c : Char) :
    decimalValue (cs ++ [c]) = decimalValue cs * 10 + digitValue c := by
  rw [decimalValue, List.map_append, valueFrom_append]
  rfl

namespace Dividend

variable {n : Nat} {cs : List Char}

theorem nil : Dividend 0 [] := ⟨by simp, by simp, rfl⟩

theorem eq_nil_iff (h : Dividend n cs) : cs = [] ↔ n = 0 := by
  obtain ⟨hdigits, hhead, rfl⟩ := h
  cases cs with
  | nil => exact iff_of_true rfl rfl
  | cons c cs =>
    have hc : digitValue c ≠ 0 := by
      intro hzero
      apply hhead
      rw [(digitValue_eq_zero_iff (hdigits c List.mem_cons_self)).1 hzero]
      rfl
    have hpos := valueFrom_pos 10 (by omega) hc (cs.map digitValue)
    exact iff_of_false (List.cons_ne_nil c cs) hpos.ne'

theorem extend (h : Dividend n cs) {digit : Nat} (hdigit : digit ≤ 9) :
    Dividend (n * 10 + digit) (extend cs digit) := by
  unfold Limbs.extend
  by_cases hzero : cs = [] ∧ digit = 0
  · obtain ⟨hnil, rfl⟩ := hzero
    rw [if_pos ⟨hnil, rfl⟩, h.eq_nil_iff.1 hnil]
    exact nil
  · rw [if_neg hzero]
    refine ⟨?_, ?_, ?_⟩
    · exact List.forall_mem_append.2 ⟨h.all_digits,
        List.forall_mem_singleton.2 (isDigit_behindZero hdigit)⟩
    · cases cs with
      | cons c cs => exact h.no_leading_zero
      | nil =>
        intro hhead
        have hchar : behindZero digit = '0' := Option.some.inj hhead
        have hvalue := digitValue_behindZero hdigit
        rw [hchar] at hvalue
        exact hzero ⟨rfl, hvalue.symm⟩
    · rw [decimalValue_concat, h.value_eq, digitValue_behindZero hdigit]

theorem dropWhile (h : ∀ c ∈ cs, isDigit c) :
    Dividend (decimalValue cs) (cs.dropWhile (· == '0')) where
  all_digits c hc := h c ((List.dropWhile_sublist _).subset hc)
  no_leading_zero hhead := by
    have := List.head?_dropWhile_not (· == '0') cs
    rw [hhead] at this
    simp at this
  value_eq := by
    rw [decimalValue, ← dropWhile_map_digitValue h, valueFrom_dropWhile_zero, decimalValue]

end Dividend

theorem quotient_digit_le {r v : Nat} (hr : r < base) (hv : v < 10) : (r * 10 + v) / base ≤ 9 := by
  apply Nat.le_of_lt_succ
  apply Nat.div_lt_of_lt_mul
  omega

/-- Behind a quotient of `m` and a remainder `r`, a pass divides `m * base + r` continued by the
digits. -/
theorem divideText_spec {m r : Nat} {quotient cs : List Char} (hr : r < base)
    (hq : Dividend m quotient) (hcs : ∀ c ∈ cs, isDigit c) :
    (∀ step ∈ (divideText base quotient r cs).steps, step.remainder < base ∧ step.digit ≤ 9) ∧
    Dividend (valueFrom 10 (m * base + r) (cs.map digitValue) / base)
      (divideText base quotient r cs).quotient ∧
    (divideText base quotient r cs).remainder =
      valueFrom 10 (m * base + r) (cs.map digitValue) % base := by
  have hpos : 0 < base := by omega
  induction cs generalizing m r quotient with
  | nil =>
    have hdiv : (m * base + r) / base = m := by
      rw [Nat.mul_comm, Nat.mul_add_div hpos, Nat.div_eq_of_lt hr, Nat.add_zero]
    have hmod : (m * base + r) % base = r := by
      rw [Nat.mul_comm, Nat.mul_add_mod, Nat.mod_eq_of_lt hr]
    refine ⟨by simp [divideText], ?_, hmod.symm⟩
    rw [List.map_nil, valueFrom, hdiv]
    exact hq
  | cons c cs ih =>
    obtain ⟨hc, hcs⟩ := List.forall_mem_cons.1 hcs
    have hdigit := quotient_digit_le hr (digitValue_lt_ten hc)
    have hrest : r * 10 + digitValue c - (r * 10 + digitValue c) / base * base =
        (r * 10 + digitValue c) % base := (Nat.mod_eq_sub_div_mul).symm
    obtain ⟨hsteps, hquotient, hremainder⟩ :=
      ih (Nat.mod_lt (r * 10 + digitValue c) hpos) (hq.extend hdigit) hcs
    have hvalue : (m * 10 + (r * 10 + digitValue c) / base) * base +
        (r * 10 + digitValue c) % base = (m * base + r) * 10 + digitValue c := by
      have := Nat.div_add_mod (r * 10 + digitValue c) base
      linarith
    rw [hvalue] at hquotient hremainder
    rw [divideText, hrest, List.map_cons, valueFrom]
    exact ⟨List.forall_mem_cons.2 ⟨⟨hr, hdigit⟩, hsteps⟩, hquotient, hremainder⟩

theorem Dividend.divideText {n : Nat} {cs : List Char} (h : Dividend n cs) (hpos : 0 < base) :
    (∀ step ∈ (divideText base [] 0 cs).steps, step.remainder < base ∧ step.digit ≤ 9) ∧
    Dividend (n / base) (divideText base [] 0 cs).quotient ∧
    (divideText base [] 0 cs).remainder = n % base := by
  have hpass := divideText_spec hpos nil h.all_digits
  rw [Nat.zero_mul, Nat.add_zero] at hpass
  rw [← h.value_eq]
  exact hpass

/-- The passes divide by the base again and again and leave the limbs of the number, one each. -/
theorem dividends?_spec (h : 1 < base) {n fuel : Nat} {cs : List Char} (hcs : Dividend n cs)
    (hfuel : (split base n).length ≤ fuel) :
    ∃ dividends, dividends? base fuel cs = some dividends ∧
      dividends.map (fun dividend => (divideText base [] 0 dividend).remainder) = split base n ∧
      ∀ i dividend, dividends[i]? = some dividend → Dividend (n / base ^ i) dividend := by
  induction fuel generalizing n cs with
  | zero =>
    have hn : n = 0 := by
      by_contra hn
      rw [split_of_ne_zero h hn] at hfuel
      cases hfuel
    subst hn
    rw [hcs.eq_nil_iff.2 rfl, split_zero]
    exact ⟨[], rfl, rfl, by simp⟩
  | succ fuel ih =>
    by_cases hn : n = 0
    · subst hn
      rw [hcs.eq_nil_iff.2 rfl, split_zero]
      exact ⟨[], rfl, rfl, by simp⟩
    · obtain ⟨c, cs, rfl⟩ := List.exists_cons_of_ne_nil (hcs.eq_nil_iff.not.2 hn)
      obtain ⟨-, hquotient, hremainder⟩ := hcs.divideText (by omega : 0 < base)
      rw [split_of_ne_zero h hn] at hfuel ⊢
      obtain ⟨dividends, hdividends, hlimbs, hall⟩ := ih hquotient (Nat.le_of_succ_le_succ hfuel)
      refine ⟨(c :: cs) :: dividends, ?_, ?_, ?_⟩
      · rw [dividends?, hdividends]
        rfl
      · rw [List.map_cons, hlimbs, hremainder]
      · intro i dividend hi
        cases i with
        | zero =>
          obtain rfl : c :: cs = dividend := Option.some.inj hi
          rw [pow_zero, Nat.div_one]
          exact hcs
        | succ i =>
          have hi' := hall i dividend hi
          rw [Nat.div_div_eq_div_mul, ← pow_succ'] at hi'
          exact hi'

theorem remainders_of_split {n : Nat} {dividends : List (List Char)}
    (h : dividends.map (fun dividend => (divideText base [] 0 dividend).remainder) =
      split base n) : remainders base dividends = ofNat base n := by
  unfold remainders ofNat
  generalize dividends.map (fun dividend => (divideText base [] 0 dividend).remainder) = limbs
    at h ⊢
  subst h
  cases split base n <;> rfl

theorem length_split_le (base n : Nat) : (split base n).length ≤ (ofNat base n).length := by
  rw [ofNat]
  cases split base n with
  | nil => exact Nat.zero_le _
  | cons x xs => exact le_rfl

/-- Decimal digits, with any leading zeros or none at all, are split into the one canonical limb
list of the number that they write. No more passes are made than there are limbs. Pass by pass the
dividend is the number divided by a power of the base, written in ASCII digits without a leading
zero, and every step of a pass finds a decimal digit. -/
theorem splitting_exact (h : 1 < base) {digits : List Char} (hdigits : ∀ c ∈ digits, isDigit c) :
    ∃ limbs, ofDigits base (digits.map digitValue) = limbs ∧ Canonical base limbs ∧
      ∑ i : Fin limbs.length, limbs.get i * base ^ (i : Nat) = decimalValue digits ∧
      (∀ xs, Canonical base xs →
        ∑ i : Fin xs.length, xs.get i * base ^ (i : Nat) = decimalValue digits → xs = limbs) ∧
      ∀ fuel, limbs.length ≤ fuel → ∃ dividends,
        dividends? base fuel (digits.dropWhile (· == '0')) = some dividends ∧
        remainders base dividends = limbs ∧
        ∀ i dividend, dividends[i]? = some dividend →
          Dividend (decimalValue digits / base ^ i) dividend ∧
          ∀ step ∈ (divideText base [] 0 dividend).steps, step.remainder < base ∧ step.digit ≤ 9 := by
  have hlimbs : ofDigits base (digits.map digitValue) = ofNat base (decimalValue digits) :=
    ofDigits_eq_ofNat h _
  refine ⟨_, hlimbs, canonical_ofNat h _, ?_, ?_, ?_⟩
  · exact (value_eq_sum base _).symm.trans (value_ofNat h _)
  · intro xs hxs hvalue
    have hsum : value base xs = decimalValue digits := (value_eq_sum base xs).trans hvalue
    rw [hxs.eq_ofNat h, hsum]
  · intro fuel hfuel
    obtain ⟨dividends, hdividends, hremainders, hall⟩ := dividends?_spec h (.dropWhile hdigits)
      ((length_split_le base _).trans hfuel)
    refine ⟨dividends, hdividends, remainders_of_split hremainders, ?_⟩
    intro i dividend hi
    have hdividend := hall i dividend hi
    exact ⟨hdividend, (hdividend.divideText (by omega)).1⟩

theorem splitting_exact_thousand :
    1 < 1000 ∧ (∀ c ∈ ['0', '0', '1', '2', '3', '4', '5', '6'], isDigit c) ∧
    ofDigits 1000 ([0, 0, 1, 2, 3, 4, 5, 6]) = [456, 123] ∧
    dividends? 1000 2 ['1', '2', '3', '4', '5', '6'] =
      some [['1', '2', '3', '4', '5', '6'], ['1', '2', '3']] ∧
    Dividend 123 ['1', '2', '3'] ∧ ofDigits 2 [] = [0] := by
  have hbase : 1 < 1000 := by decide
  have hdigits : ∀ c ∈ ['0', '0', '1', '2', '3', '4', '5', '6'], isDigit c :=
    List.all_eq_true.1 (by decide)
  obtain ⟨limbs, hlimbs, hcanonical, hvalue, hunique, hpasses⟩ := splitting_exact hbase hdigits
  have hknown : [456, 123] = limbs := hunique _ ⟨by decide, by decide, by decide⟩ (by decide)
  obtain ⟨none, hnone, -, -, hzero, -⟩ :=
    splitting_exact (by decide : 1 < 2) (List.forall_mem_nil fun c => isDigit c = true)
  rw [← hknown] at hlimbs hpasses
  obtain ⟨dividends, hdividends, -, hall⟩ := hpasses 2 (by decide)
  have htexts : dividends? 1000 2 ['1', '2', '3', '4', '5', '6'] =
      some [['1', '2', '3', '4', '5', '6'], ['1', '2', '3']] := by decide
  obtain rfl := Option.some.inj (htexts.symm.trans hdividends)
  rw [← hzero [0] ⟨by decide, by decide, by decide⟩ rfl] at hnone
  exact ⟨hbase, hdigits, hlimbs, htexts, (hall 1 _ rfl).1, hnone⟩

end Radix.Limbs
