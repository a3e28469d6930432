import Radix.Proofs.Number.Form

namespace Radix

namespace Text

theorem toNat_of_isDigit {c : Char} (h : isDigit c) : 48 ≤ c.toNat ∧ c.toNat ≤ 57 := by
  simp only [isDigit, Bool.and_eq_true, decide_eq_true_eq, Char.le_def] at h
  exact h

theorem digitChar_digitValue {c : Char} (h : isDigit c) : Nat.digitChar (digitValue c) = c := by
  obtain ⟨hlow, hhigh⟩ := toNat_of_isDigit h
  have hc : Char.ofNat c.toNat = c := Char.ofNat_toNat c
  rw [digitValue, show '0'.toNat = 48 from rfl]
  generalize c.toNat = n at hlow hhigh hc
  subst hc
  interval_cases n <;> rfl

theorem digitValue_lt_ten {c : Char} (h : isDigit c) : digitValue c < 10 := by
  obtain ⟨-, hhigh⟩ := toNat_of_isDigit h
  rw [digitValue, show '0'.toNat = 48 from rfl]
  omega

theorem digitValue_digitChar {n : Nat} (h : n < 10) : digitValue (Nat.digitChar n) = n := by
  interval_cases n <;> rfl

theorem isDigit_digitChar {n : Nat} (h : n < 10) : isDigit (Nat.digitChar n) := by
  interval_cases n <;> rfl

theorem digitValue_eq_zero_iff {c : Char} (h : isDigit c) : digitValue c = 0 ↔ c = '0' := by
  constructor
  · intro hz
    rw [← digitChar_digitValue h, hz]
    rfl
  · rintro rfl
    rfl

/-- The number that ASCII digits write. -/
def decimalValue (digits : List Char) : Nat := Limbs.valueFrom 10 0 (digits.map digitValue)

theorem foldl_eq_valueFrom (acc : Nat) (digits : List Nat) :
    digits.foldl (10 * · + ·) acc = Limbs.valueFrom 10 acc digits := by
  induction digits generalizing acc with
  | nil => rfl
  | cons d digits ih => rw [List.foldl_cons, ih, Limbs.valueFrom, Nat.mul_comm]

theorem fitsDigits_iff (count n : Nat) : fitsDigits count n ↔ n < 10 ^ count := by
  induction count generalizing n with
  | zero => simp [fitsDigits]
  | succ count ih =>
    have hpos : 0 < 10 ^ count := Nat.pow_pos (by omega)
    have hdiv : n / 10 < 10 ^ count ↔ n < 10 ^ (count + 1) := by
      rw [Nat.div_lt_iff_lt_mul (by omega), pow_succ]
    rw [fitsDigits, Bool.or_eq_true, decide_eq_true_eq, ih, hdiv, or_iff_right_iff_imp, pow_succ]
    omega

theorem isWritable_iff (n : Int) : isWritable n ↔ n.natAbs < 10 ^ digitLimit :=
  fitsDigits_iff digitLimit n.natAbs

theorem isWritable_natCast (n : Nat) : isWritable n ↔ n < 10 ^ digitLimit := isWritable_iff n

end Text

namespace Limbs

theorem dropHighZeros_eq_reverse (xs : List Nat) :
    dropHighZeros xs = (xs.reverse.dropWhile (· == 0)).reverse := by
  induction xs with
  | nil => rfl
  | cons x xs ih =>
    rw [dropHighZeros, ih, List.reverse_cons, List.dropWhile_append]
    cases hd : xs.reverse.dropWhile (· == 0) with
    | nil => by_cases hx : x = 0 <;> simp [hx]
    | cons y ys =>
      obtain ⟨z, zs, hr⟩ := List.exists_cons_of_ne_nil (List.reverse_ne_nil_iff.2
        (List.cons_ne_nil y ys))
      rw [hr]
      simp [← hr]

theorem map_digitChar_ofNat (n : Nat) :
    ((ofNat 10 n).reverse).map Nat.digitChar = Nat.toDigits 10 n := by
  induction n using Nat.strong_induction_on with
  | _ n ih =>
    by_cases hn : n < 10
    · rw [Nat.toDigits_of_lt_base hn, ofNat_of_lt (by omega) hn]
      rfl
    · rw [Nat.toDigits_of_base_le (by omega) (by omega), ← ih (n / 10) (by omega),
        ofNat_of_le (by omega) (by omega)]
      simp

theorem toDecimal_eq {base : Nat} (h : 0 < base) (limbs : List Nat) :
    toDecimal base limbs = toString (value base limbs) := by
  rw [toDecimal, toDigits_eq_reverse h, map_digitChar_ofNat, Nat.toString_eq_ofList_toDigits]

end Limbs

namespace Text

theorem isDigit_of_mem_toDigits {n : Nat} {c : Char} (h : c ∈ Nat.toDigits 10 n) : isDigit c := by
  rw [← Limbs.map_digitChar_ofNat] at h
  obtain ⟨d, hd, rfl⟩ := List.mem_map.1 h
  exact isDigit_digitChar ((Limbs.canonical_ofNat (by omega) n).limbs_lt d (List.mem_reverse.1 hd))

theorem decimalValue_toDigits (n : Nat) : decimalValue (Nat.toDigits 10 n) = n := by
  have hmap : ((Limbs.ofNat 10 n).reverse.map Nat.digitChar).map digitValue =
      (Limbs.ofNat 10 n).reverse := by
    rw [List.map_map]
    refine (List.map_congr_left fun d hd => ?_).trans (List.map_id _)
    exact digitValue_digitChar
      ((Limbs.canonical_ofNat (by omega) n).limbs_lt d (List.mem_reverse.1 hd))
  rw [decimalValue, ← Limbs.map_digitChar_ofNat, hmap, Limbs.valueFrom_reverse,
    Limbs.value_ofNat (by omega)]

def stripZeros (digits : List Char) : List Char :=
  match digits.dropWhile (· == '0') with
  | [] => ['0']
  | c :: cs => c :: cs

theorem dropWhile_map_digitValue {digits : List Char} (h : ∀ c ∈ digits, isDigit c) :
    (digits.map digitValue).dropWhile (· == 0) =
      (digits.dropWhile (· == '0')).map digitValue := by
  induction digits with
  | nil => rfl
  | cons c cs ih =>
    obtain ⟨hc, hcs⟩ := List.forall_mem_cons.1 h
    by_cases hz : c = '0'
    · subst hz
      simpa [digitValue] using ih hcs
    · have hv : digitValue c ≠ 0 := fun hv => hz ((digitValue_eq_zero_iff hc).1 hv)
      simp [hz, hv]

theorem map_digitChar_digitValue {digits : List Char} (h : ∀ c ∈ digits, isDigit c) :
    (digits.map digitValue).map Nat.digitChar = digits := by
  rw [List.map_map]
  exact (List.map_congr_left fun c hc => digitChar_digitValue (h c hc)).trans (List.map_id _)

theorem toDigits_decimalValue {digits : List Char} (h : ∀ c ∈ digits, isDigit c) :
    Nat.toDigits 10 (decimalValue digits) = stripZeros digits := by
  have hlt : ∀ d ∈ (digits.map digitValue).reverse, d < 10 := by
    intro d hd
    obtain ⟨c, hc, rfl⟩ := List.mem_map.1 (List.mem_reverse.1 hd)
    exact digitValue_lt_ten (h c hc)
  have htrim := Limbs.trim_eq_ofNat (by omega : 1 < 10) hlt
  have hvalue : Limbs.value 10 (digits.map digitValue).reverse = decimalValue digits := by
    rw [← Limbs.valueFrom_reverse, List.reverse_reverse]
    rfl
  have hrest : ∀ c ∈ digits.dropWhile (· == '0'), isDigit c :=
    fun c hc => h c ((List.dropWhile_sublist _).subset hc)
  rw [hvalue, Limbs.trim, Limbs.dropHighZeros_eq_reverse, List.reverse_reverse,
    dropWhile_map_digitValue h] at htrim
  rw [← Limbs.map_digitChar_ofNat, ← htrim, stripZeros]
  cases hd : digits.dropWhile (· == '0') with
  | nil => rfl
  | cons c cs =>
    rw [hd] at hrest
    obtain ⟨d, ds, hr⟩ := List.exists_cons_of_ne_nil (List.reverse_ne_nil_iff.2
      (List.map_eq_nil_iff.not.2 (List.cons_ne_nil c cs)) : ((c :: cs).map digitValue).reverse ≠ [])
    rw [hr]
    simp only
    rw [← hr, List.reverse_reverse, map_digitChar_digitValue hrest]

/-- The texts `-?[0-9]+`: a minus sign at most, and ASCII digits. -/
structure Writes (negative : Bool) (digits : List Char) (s : String) : Prop where
  toList_eq : s.toList = (if negative then ['-'] else []) ++ digits
  nonempty : digits ≠ []
  all_digits : ∀ c ∈ digits, isDigit c

def IsDecimal (s : String) : Prop := ∃ negative digits, Writes negative digits s

/-- The canonical text: no leading zeros, and no sign of zero. -/
def canonicalDecimal (negative : Bool) (digits : List Char) : String :=
  String.ofList ((if negative && stripZeros digits ≠ ['0'] then ['-'] else []) ++ stripZeros digits)

end Text

namespace Number

open Text

variable {base : Nat}

theorem toDigits_eq_zero_iff {n : Nat} : Nat.toDigits 10 n = ['0'] ↔ n = 0 := by
  constructor
  · intro h
    rw [← decimalValue_toDigits n, h]
    rfl
  · rintro rfl
    rfl

theorem toString_signed (negative : Bool) (n : Nat) :
    toString (signed negative n) = String.ofList
      ((if negative && Nat.toDigits 10 n ≠ ['0'] then ['-'] else []) ++ Nat.toDigits 10 n) := by
  have hdash : "-" = String.ofList ['-'] := rfl
  rw [Int.toString_eq_repr, Int.repr_eq_if]
  by_cases hs : signed negative n < 0
  · obtain ⟨rfl, hn⟩ := (signed_neg_iff negative n).1 hs
    have hz : Nat.toDigits 10 n ≠ ['0'] := fun h => hn (toDigits_eq_zero_iff.1 h)
    rw [if_neg (by omega), signed, if_pos rfl, neg_neg, Int.toNat_natCast,
      Nat.repr_eq_ofList_toDigits, hdash, ← String.ofList_append]
    simp [hz]
  · have hsigned : signed negative n = n := by
      rw [signed_neg_iff] at hs
      cases negative <;> simp_all [signed]
    have hcond : ¬ (negative && Nat.toDigits 10 n ≠ ['0']) = true := by
      rw [signed_neg_iff] at hs
      simpa [toDigits_eq_zero_iff] using hs
    rw [if_pos (by omega), hsigned, Int.toNat_natCast, Nat.repr_eq_ofList_toDigits, if_neg hcond]
    rfl

theorem toString_decimalValue {digits : List Char} (h : ∀ c ∈ digits, isDigit c)
    (negative : Bool) :
    toString (signed negative (decimalValue digits)) = canonicalDecimal negative digits := by
  rw [toString_signed, toDigits_decimalValue h, canonicalDecimal]

theorem magnitudeText_eq {x : Number} (h : 0 < x.base) : x.magnitudeText = toString x.magnitude :=
  Limbs.toDecimal_eq h x.limbs

theorem text_eq {x : Number} (hx : x.WellFormed) : x.text = toString x.toInt := by
  have hpos : 0 < x.base := by
    have := hx.one_lt_base
    omega
  have hzero : x.isZero = decide (Nat.toDigits 10 x.magnitude = ['0']) := by
    have hz := isZero_ofInt hx.one_lt_base x.toInt
    rw [← hx.eq_ofInt] at hz
    rw [hz, decide_eq_decide, toDigits_eq_zero_iff, ← natAbs_toInt, Int.natAbs_eq_zero]
  have hdash : "-" = String.ofList ['-'] := rfl
  rw [text, magnitudeText_eq hpos, toInt_eq_signed, toString_signed, hzero,
    Nat.toString_eq_ofList_toDigits, hdash, ← String.ofList_append]
  by_cases hn : x.negative = true <;> by_cases hd : Nat.toDigits 10 x.magnitude = ['0'] <;>
    simp [hn, hd]

theorem text_ofInt (h : 1 < base) (n : Int) : (ofInt base n).text = toString n := by
  rw [text_eq (wellFormed_ofInt h n), toInt_ofInt h]

theorem isDigit_dash : isDigit '-' = false := by decide

theorem signedDigits?_dash {digits : List Char} (h : digits ≠ []) :
    signedDigits? ('-' :: digits) = if digits.all isDigit then some (true, digits) else none := by
  cases digits with
  | nil => exact absurd rfl h
  | cons c cs => rfl

theorem signedDigits?_of_ne_dash {c : Char} (h : c ≠ '-') (cs : List Char) :
    signedDigits? (c :: cs) = if (c :: cs).all isDigit then some (false, c :: cs) else none := by
  simp [signedDigits?, h]

theorem signedDigits?_eq_some_iff {cs : List Char} {negative : Bool} {digits : List Char} :
    signedDigits? cs = some (negative, digits) ↔
      cs = (if negative then ['-'] else []) ++ digits ∧ digits ≠ [] ∧
        ∀ c ∈ digits, isDigit c := by
  constructor
  · intro h
    rcases cs with _ | ⟨c, cs⟩
    · simp [signedDigits?] at h
    by_cases hc : c = '-'
    · subst hc
      rcases cs with _ | ⟨d, ds⟩
      · simp [signedDigits?, isDigit_dash] at h
      rw [signedDigits?_dash (List.cons_ne_nil d ds)] at h
      split at h
      · rename_i hall
        cases h
        exact ⟨rfl, List.cons_ne_nil d ds, List.all_eq_true.1 hall⟩
      · cases h
    · rw [signedDigits?_of_ne_dash hc] at h
      split at h
      · rename_i hall
        cases h
        exact ⟨rfl, List.cons_ne_nil c cs, List.all_eq_true.1 hall⟩
      · cases h
  · rintro ⟨rfl, hne, hall⟩
    cases negative
    · obtain ⟨c, cs, rfl⟩ := List.exists_cons_of_ne_nil hne
      have hc : c ≠ '-' := by
        rintro rfl
        simpa [isDigit_dash] using hall '-' (by simp)
      simp only [Bool.false_eq_true, if_false, List.nil_append]
      rw [signedDigits?_of_ne_dash hc, if_pos (List.all_eq_true.2 hall)]
    · simp only [if_true, List.singleton_append]
      rw [signedDigits?_dash hne, if_pos (List.all_eq_true.2 hall)]

theorem signedDigits?_of_writes {negative : Bool} {digits : List Char} {s : String}
    (h : Writes negative digits s) : signedDigits? s.toList = some (negative, digits) :=
  signedDigits?_eq_some_iff.2 ⟨h.toList_eq, h.nonempty, h.all_digits⟩

theorem ofText_of_writes (h : 1 < base) {negative : Bool} {digits : List Char} {s : String}
    (hs : Writes negative digits s) :
    ofText base s = .ok (ofInt base (signed negative (decimalValue digits))) := by
  have hcanonical := Limbs.canonical_ofNat h (decimalValue digits)
  have htrim : Limbs.trim (Limbs.ofDigits base (digits.map digitValue)) =
      Limbs.ofNat base (decimalValue digits) := by
    rw [Limbs.ofDigits_eq_ofNat h]
    exact (Limbs.trim_eq_ofNat h hcanonical.limbs_lt).trans (by rw [Limbs.value_ofNat h])
  rw [ofText, signedDigits?_of_writes hs, ofInt_signed h]
  simp only [htrim]

theorem ofText_of_not_isDecimal {s : String} (h : ¬ IsDecimal s) :
    ofText base s = .error (.malformedNumber s) := by
  cases hs : signedDigits? s.toList with
  | none => rw [ofText, hs]
  | some p =>
    obtain ⟨heq, hne, hall⟩ := signedDigits?_eq_some_iff.1 hs
    exact absurd ⟨p.1, p.2, heq, hne, hall⟩ h

theorem ofText_eq_error_iff (h : 1 < base) {s : String} {f : Fault} :
    ofText base s = .error f ↔ ¬ IsDecimal s ∧ f = .malformedNumber s := by
  constructor
  · intro hf
    by_cases hs : IsDecimal s
    · obtain ⟨negative, digits, hw⟩ := hs
      rw [ofText_of_writes h hw] at hf
      cases hf
    · rw [ofText_of_not_isDecimal hs] at hf
      cases hf
      exact ⟨hs, rfl⟩
  · rintro ⟨hs, rfl⟩
    exact ofText_of_not_isDecimal hs

theorem writes_toString_signed (negative : Bool) (n : Nat) :
    Writes (negative && Nat.toDigits 10 n ≠ ['0']) (Nat.toDigits 10 n)
      (toString (signed negative n)) where
  toList_eq := by rw [toString_signed, String.toList_ofList]
  nonempty := Nat.toDigits_ne_nil
  all_digits _ h := isDigit_of_mem_toDigits h

theorem signed_and_ne_zero (negative : Bool) (n : Nat) :
    signed (negative && Nat.toDigits 10 n ≠ ['0']) n = signed negative n := by
  by_cases hz : n = 0
  · subst hz
    cases negative <;> simp [signed]
  · have hd : Nat.toDigits 10 n ≠ ['0'] := fun h => hz (toDigits_eq_zero_iff.1 h)
    simp [hd]

theorem ofText_toString (h : 1 < base) (n : Int) : ofText base (toString n) = .ok (ofInt base n) := by
  have hw := writes_toString_signed (n < 0) n.natAbs
  rw [signed_natAbs] at hw
  rw [ofText_of_writes h hw, decimalValue_toDigits, signed_and_ne_zero, signed_natAbs]

theorem isDecimal_text {x : Number} (hx : x.WellFormed) : IsDecimal x.text := by
  rw [text_eq hx, toInt_eq_signed]
  exact ⟨_, _, writes_toString_signed x.negative x.magnitude⟩

theorem ofText_text {x : Number} (hx : x.WellFormed) : ofText x.base x.text = .ok x := by
  rw [text_eq hx, ofText_toString hx.one_lt_base, ← hx.eq_ofInt]

/-- Reading and writing decimal texts: what is refused, what is written of what was read, and that
what was written is read back, limb for limb. -/
theorem decimal_round_trip (h : 1 < base) :
    (∀ s, ofText base s = .error (.malformedNumber s) ↔ ¬ IsDecimal s) ∧
    (∀ s negative digits, Writes negative digits s →
      ∃ x, ofText base s = .ok x ∧ x.text = canonicalDecimal negative digits) ∧
    (∀ x, x.WellFormed → x.base = base → IsDecimal x.text ∧ ofText base x.text = .ok x) := by
  refine ⟨?_, ?_, ?_⟩
  · intro s
    rw [ofText_eq_error_iff h]
    exact and_iff_left rfl
  · intro s negative digits hs
    refine ⟨_, ofText_of_writes h hs, ?_⟩
    rw [text_eq (wellFormed_ofInt h _), toInt_ofInt h, toString_decimalValue hs.all_digits]
  · intro x hx hb
    subst hb
    exact ⟨isDecimal_text hx, ofText_text hx⟩

theorem decimal_round_trip_seven :
    1 < 7 ∧ ofText 7 "-" = .error (.malformedNumber "-") ∧
    (∃ x, ofText 7 "-0012" = .ok x ∧ x.text = "-12") ∧
    ofText 7 (ofInt 7 (-16)).text = .ok (ofInt 7 (-16)) := by
  have hbase : 1 < 7 := by decide
  obtain ⟨hrefused, hread, hback⟩ := decimal_round_trip hbase
  refine ⟨hbase, (hrefused "-").2 ?_, ?_, (hback _ (wellFormed_ofInt hbase (-16)) rfl).2⟩
  · rintro ⟨negative, digits, hs⟩
    have hsigned := signedDigits?_of_writes hs
    rw [show signedDigits? "-".toList = none by decide] at hsigned
    cases hsigned
  · have hwrites : Writes true ['0', '0', '1', '2'] "-0012" :=
      ⟨by decide, by decide, List.all_eq_true.1 (by decide)⟩
    obtain ⟨x, hx, ht⟩ := hread _ _ _ hwrites
    exact ⟨x, hx, ht.trans (by decide)⟩

end Number

end Radix
