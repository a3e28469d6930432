import Radix.Expression.Evaluate
import Radix.Proofs.Number.Search

namespace Radix

namespace Text

def IsNumeral (s : String) : Prop := s.toList ≠ [] ∧ s.toList.all isDigit

instance : DecidablePred IsNumeral := fun _ => inferInstanceAs (Decidable (_ ∧ _))

end Text

/-- Why the machine stops. -/
inductive Failure where
  | divisionByZero (dividend : Int)
  | negativeModulus (modulus : Int)
  | exponentOverflow (exponent : Int)
  | invalidToken (token : String)
  | stackUnderflow (op : Operator) (found : Nat)
  deriving DecidableEq, Repr

namespace Failure

def toClass : Failure → Fault.Class
  | divisionByZero _ => .divisionByZero
  | negativeModulus _ => .negativeModulus
  | exponentOverflow _ => .exponentOverflow
  | invalidToken _ => .invalidToken
  | stackUnderflow .. => .stackUnderflow

/-- The failure as it is told of numbers in a base. -/
def fault (base : Nat) : Failure → Fault
  | divisionByZero dividend => .divisionByZero (.ofInt base dividend)
  | negativeModulus modulus => .negativeModulus (.ofInt base modulus)
  | exponentOverflow exponent => .told (.exponentOverflow (.ofInt base exponent))
  | invalidToken token => .invalidToken .after token
  | stackUnderflow op found => .stackUnderflow op found

theorem toClass_fault (base : Nat) (failure : Failure) :
    (failure.fault base).toClass =
      if failure.toClass = .exponentOverflow ∧ ¬ base < 10 ^ Text.digitLimit then .wrongValue
      else failure.toClass := by
  cases failure with
  | exponentOverflow exponent =>
    by_cases hbase : base < 10 ^ Text.digitLimit
    · simp [fault, toClass, Fault.told, Fault.numerals, Fault.toClass, hbase,
        (Text.isWritable_natCast base).2 hbase]
    · have hw : Text.isWritable base = false := by
        rw [← Bool.not_eq_true, Text.isWritable_natCast]
        exact hbase
      simp [fault, toClass, Fault.told, Fault.numerals, Fault.toClass, hbase, hw]
  | _ => rfl

end Failure

namespace Operator

def written? : String → Option Operator
  | "+" => some .plus
  | "-" => some .minus
  | "*" => some .times
  | "/" => some .divide
  | "%" => some .modulo
  | "^" => some .power
  | _ => none

/-- What the operator means for integers. -/
def exact : Operator → Int → Int → Except Failure Int
  | .plus, m, n => .ok (m + n)
  | .minus, m, n => .ok (m - n)
  | .times, m, n => .ok (m * n)
  | .divide, m, n => if n = 0 then .error (.divisionByZero m) else .ok (m.tdiv n)
  | .modulo, m, n =>
    if n < 0 then .error (.negativeModulus n)
    else if n = 0 then .error (.divisionByZero m)
    else .ok (m - n * m.tdiv n)
  | .power, m, n =>
    if n < -2 ^ 63 ∨ 2 ^ 63 - 1 < n then .error (.exponentOverflow n)
    else if n ≤ 0 then .ok 1
    else .ok (m ^ n.toNat)

end Operator

namespace Machine

/-- Digits are pushed as the number that they write. An operator takes its right operand and then
its left one, and pushes what it makes of them. -/
def accept (stack : List Int) (token : String) : Except Failure (List Int) :=
  if Text.IsNumeral token then .ok (Text.decimalValue token.toList :: stack)
  else
    match Operator.written? token, stack with
    | none, _ => .error (.invalidToken token)
    | some op, right :: left :: rest => (op.exact left right).map (· :: rest)
    | some op, _ => .error (.stackUnderflow op stack.length)

def step (stack : List Int) (raw : String) : Except Failure (List Int) :=
  accept stack (Text.trim raw)

/-- The stack after all tokens, or the first failure with the place of its token. -/
def run : List Int → List String → Except (Nat × Failure) (List Int)
  | stack, [] => .ok stack
  | stack, raw :: raws =>
    match step stack raw with
    | .ok stack => (run stack raws).mapError fun (i, failure) => (i + 1, failure)
    | .error failure => .error (0, failure)

theorem run_cons_ok {stack next : List Int} {raw : String} (h : step stack raw = .ok next)
    (raws : List String) :
    run stack (raw :: raws) = (run next raws).mapError fun (i, failure) => (i + 1, failure) := by
  rw [run, h]

theorem run_cons_error {stack : List Int} {raw : String} {failure : Failure}
    (h : step stack raw = .error failure) (raws : List String) :
    run stack (raw :: raws) = .error (0, failure) := by
  rw [run, h]

/-- The machine runs through the tokens before the place that it names, and fails there. -/
theorem exists_step_of_run_error {stack : List Int} {raws : List String} {i : Nat}
    {failure : Failure} (hrun : run stack raws = .error (i, failure)) :
    ∃ raw last, raws[i]? = some raw ∧ run stack (raws.take i) = .ok last ∧
      step last raw = .error failure := by
  induction raws generalizing stack i with
  | nil => cases hrun
  | cons raw raws ih =>
    cases hstep : step stack raw with
    | error failure' =>
      rw [run_cons_error hstep] at hrun
      cases hrun
      exact ⟨raw, stack, rfl, rfl, hstep⟩
    | ok next =>
      rw [run_cons_ok hstep] at hrun
      cases htail : run next raws with
      | ok last =>
        rw [htail] at hrun
        cases hrun
      | error e =>
        rw [htail] at hrun
        cases hrun
        obtain ⟨raw', last, hget, htake, hfail⟩ := ih htail
        refine ⟨raw', last, hget, ?_, hfail⟩
        rw [List.take_succ_cons, run_cons_ok hstep, htake]
        rfl

end Machine

namespace Token

theorem ofTrimmed_of_isNumeral {s : String} (h : Text.IsNumeral s) : ofTrimmed s = .number s :=
  if_pos h

theorem ofTrimmed_of_written {s : String} {op : Operator} (h : Operator.written? s = some op) :
    ofTrimmed s = .operator op := by
  unfold Operator.written? at h
  split at h <;> cases h <;> rfl

theorem ofTrimmed_of_not_written {s : String} (hs : ¬ Text.IsNumeral s)
    (h : Operator.written? s = none) :
    ofTrimmed s ∈ [opening, closing, unknown s] ∧ (ofTrimmed s).text = s := by
  rw [Text.IsNumeral] at hs
  rw [ofTrimmed, if_neg hs]
  split
  · rename_i hl
    obtain rfl : s = "(" := String.toList_injective hl
    decide
  · rename_i hl
    obtain rfl : s = ")" := String.toList_injective hl
    decide
  · rename_i c _ _ hl
    cases hc : Operator.ofSymbol? c with
    | none => simp [text]
    | some op =>
      have hsymbol : op.symbol = c := by
        simpa using List.find?_some hc
      obtain rfl : s = String.ofList [op.symbol] :=
        String.toList_injective (by rw [hl, hsymbol, String.toList_ofList])
      cases op <;> cases h
  · simp [text]

end Token

namespace Expression

open Number

variable {base : Nat}

/-- The bounds of a word, compared as magnitudes in any base, admit the exponents of 64 bits. -/
theorem exponent64_ofInt (h : 1 < base) (n : Int) :
    exponent64 (ofInt base n) =
      ⟨if n < -2 ^ 63 ∨ 2 ^ 63 - 1 < n then .error ((Failure.exponentOverflow n).fault base)
        else .ok n, []⟩ := by
  have hlimit : ∀ limit : Int, Ord.compare n.natAbs limit.natAbs = .gt ↔ limit.natAbs < n.natAbs :=
    fun _ => compare_gt_iff_gt
  have hbound : Ord.compare n.natAbs (if n < 0 then minExponent else maxExponent).natAbs = .gt ↔
      n < -2 ^ 63 ∨ 2 ^ 63 - 1 < n := by
    rw [hlimit]
    split <;> simp only [minExponent, maxExponent] <;> omega
  have hnegative : (if (ofInt base n).negative = true then minExponent else maxExponent) =
      if n < 0 then minExponent else maxExponent := by simp
  rw [exponent64, hnegative, base_ofInt, compare_ofInt h, Calc.ok_bind]
  by_cases hover : n < -2 ^ 63 ∨ 2 ^ 63 - 1 < n
  · rw [if_pos hover, hbound.2 hover]
    rfl
  · rw [if_neg hover, toInt_ofInt h]
    cases hc : Ord.compare n.natAbs (if n < 0 then minExponent else maxExponent).natAbs with
    | gt => exact absurd (hbound.1 hc) hover
    | _ => rfl

/-- An exponent is taken if and only if a signed 64-bit word holds it, in whatever base it is
written, and is refused as too large if not. Only in a base too long to be written can that not be
told. -/
theorem exponent64_decided {x : Number} (hx : x.WellFormed) :
    (∀ n, (exponent64 x).outcome = .ok n ↔
      (-2 ^ 63 ≤ x.toInt ∧ x.toInt ≤ 2 ^ 63 - 1) ∧ n = x.toInt) ∧
    (∀ f, (exponent64 x).outcome = .error f ↔
      ¬ (-2 ^ 63 ≤ x.toInt ∧ x.toInt ≤ 2 ^ 63 - 1) ∧
        f = if x.base < 10 ^ Text.digitLimit then .exponentOverflow x else .numeralTooLong) := by
  have hguard := exponent64_ofInt hx.one_lt_base x.toInt
  have htold : (Failure.exponentOverflow x.toInt).fault x.base =
      if x.base < 10 ^ Text.digitLimit then .exponentOverflow x else .numeralTooLong := by
    rw [Failure.fault, ← hx.eq_ofInt, Fault.told]
    simp [Fault.numerals, Text.isWritable_natCast]
  rw [← hx.eq_ofInt, htold] at hguard
  rw [hguard]
  by_cases hover : x.toInt < -2 ^ 63 ∨ 2 ^ 63 - 1 < x.toInt
  · have hoverflow : ¬ (-2 ^ 63 ≤ x.toInt ∧ x.toInt ≤ 2 ^ 63 - 1) := by omega
    rw [if_pos hover]
    constructor
    · intro n
      exact iff_of_false (fun h => nomatch h) fun h => hoverflow h.1
    · intro f
      rw [and_iff_right hoverflow, Except.error.injEq, eq_comm]
  · have hwithin : -2 ^ 63 ≤ x.toInt ∧ x.toInt ≤ 2 ^ 63 - 1 := by omega
    rw [if_neg hover]
    constructor
    · intro n
      rw [and_iff_right hwithin, Except.ok.injEq, eq_comm]
    · intro f
      exact iff_of_false (fun h => nomatch h) fun h => h.1 hwithin

theorem exponent64_decided_bounds :
    (⟨2, List.replicate 63 0 ++ [1], true⟩ : Number).WellFormed ∧
    (exponent64 ⟨2, List.replicate 63 0 ++ [1], true⟩).outcome = .ok (-2 ^ 63) ∧
    (exponent64 ⟨2, List.replicate 63 0 ++ [1], false⟩).outcome =
      .error (.exponentOverflow ⟨2, List.replicate 63 0 ++ [1], false⟩) ∧
    (exponent64 (ofInt (2 ^ 64) (2 ^ 63 - 1))).outcome = .ok (2 ^ 63 - 1) ∧
    (exponent64 (ofInt (10 ^ Text.digitLimit) (2 ^ 63))).outcome = .error .numeralTooLong := by
  have hlong : 1 < 10 ^ Text.digitLimit := Nat.one_lt_pow (by decide) (by decide)
  have hshort : 2 < 10 ^ Text.digitLimit :=
    (by decide : 2 < 10).trans (lt_self_pow₀ (by decide) (by decide))
  have hleast : (⟨2, List.replicate 63 0 ++ [1], true⟩ : Number) = ofInt 2 (-2 ^ 63) := by
    decide +kernel
  have hover : (⟨2, List.replicate 63 0 ++ [1], false⟩ : Number) = ofInt 2 (2 ^ 63) := by
    decide +kernel
  have hword := wellFormed_ofInt (by decide : 1 < 2 ^ 64) (2 ^ 63 - 1)
  have hformed (n : Int) : (ofInt 2 n).WellFormed := wellFormed_ofInt (by decide) n
  rw [hleast, hover]
  refine ⟨hformed _, ?_, ?_, ?_, ?_⟩
  · apply ((exponent64_decided (hformed _)).1 _).2
    rw [toInt_ofInt (by decide)]
    decide
  · apply ((exponent64_decided (hformed _)).2 _).2
    rw [toInt_ofInt (by decide)]
    exact ⟨by decide, (if_pos hshort).symm⟩
  · apply ((exponent64_decided hword).1 _).2
    rw [toInt_ofInt (by decide)]
    decide
  · apply ((exponent64_decided (wellFormed_ofInt hlong (2 ^ 63))).2 _).2
    rw [toInt_ofInt hlong]
    exact ⟨by decide, (if_neg (lt_irrefl _)).symm⟩

def warnings : Operator → Int → List Record
  | .power, n => if -2 ^ 63 ≤ n ∧ n < 0 then [exponentRecord n] else []
  | _, _ => []

def inBase (base : Nat) {α β : Type} (f : α → β) : Except Failure α → Except Fault β
  | .ok a => .ok (f a)
  | .error failure => .error (failure.fault base)

theorem apply_ofInt (h : 1 < base) (op : Operator) (m n : Int) :
    apply op (ofInt base m) (ofInt base n) =
      ⟨inBase base (ofInt base) (op.exact m n), warnings op n⟩ := by
  have hm := wellFormed_ofInt h m
  have hn := wellFormed_ofInt h n
  cases op with
  | plus => exact add_ofInt h m n
  | minus => exact subtract_ofInt h m n
  | times => exact multiply_ofInt h m n
  | divide =>
    rw [apply, divide_ofInt h, Operator.exact]
    split <;> rfl
  | modulo =>
    rw [apply, modulo_eq hm hn, toInt_ofInt h, toInt_ofInt h, base_ofInt, base_ofInt,
      conversionLog_self, Operator.exact, Int.mul_comm]
    split_ifs <;> rfl
  | power =>
    rw [apply, exponent64_ofInt h, Operator.exact, warnings]
    by_cases hover : n < -2 ^ 63 ∨ 2 ^ 63 - 1 < n
    · rw [if_pos hover, if_pos hover, if_neg (by omega)]
      rfl
    · -- an exponent below zero is the natural number zero
      have hpower : m ^ n.toNat = if n ≤ 0 then 1 else m ^ n.toNat := by
        split_ifs with hle
        · rw [Int.toNat_of_nonpos hle, pow_zero]
        · rfl
      rw [if_neg hover, if_neg hover, Calc.ok_bind, power_eq hm, toInt_ofInt h, base_ofInt, hpower]
      by_cases hneg : n < 0
      · rw [if_pos hneg, if_pos hneg.le, if_pos hneg.le, if_pos (by omega)]
        rfl
      · rw [if_neg hneg, if_neg (by omega : ¬ (-2 ^ 63 ≤ n ∧ n < 0))]
        split_ifs <;> rfl

theorem ofText_numeral (h : 1 < base) {s : String} (hs : Text.IsNumeral s) :
    ofText base s = .ok (ofInt base (Text.decimalValue s.toList)) := by
  have hwrites : Text.Writes false s.toList s := ⟨rfl, hs.1, List.all_eq_true.1 hs.2⟩
  exact ofText_of_writes h hwrites

theorem run_unknown (v : Value) (stack : List Number) {s : String} (hs : ¬ Text.IsNumeral s)
    (hw : Operator.written? s = none) (tokens : List Token) :
    (run v stack (Token.ofTrimmed s :: tokens)).outcome = .error (.invalidToken .after s) := by
  -- which of the three tokens it is does not matter, as all are rejected by their text
  obtain ⟨hmem, htext⟩ := Token.ofTrimmed_of_not_written hs hw
  generalize Token.ofTrimmed s = token at hmem htext
  simp only [List.mem_cons, List.not_mem_nil, or_false] at hmem
  rcases hmem with rfl | rfl | rfl
  · rw [← htext]
    cases stack <;> rfl
  · rw [← htext]
    cases stack <;> rfl
  · cases stack <;> rfl

/-- One token does to numbers of the base what it does to their integers. -/
theorem run_cons (h : 1 < base) (stack : List Int) (raw : String) (tokens : List Token) :
    (run (.int base) (stack.map (ofInt base)) (Token.read raw :: tokens)).outcome =
      inBase base (List.map (ofInt base)) (Machine.step stack raw) >>=
        fun xs => (run (.int base) xs tokens).outcome := by
  rw [Token.read, Machine.step]
  generalize Text.trim raw = token
  unfold Machine.accept
  by_cases hs : Text.IsNumeral token
  · rw [if_pos hs, Token.ofTrimmed_of_isNumeral hs, run, checkBase_natCast h, Calc.lift_ok,
      Calc.ok_bind, ofText_numeral h hs, Calc.lift_ok, Calc.ok_bind]
    rfl
  · rw [if_neg hs]
    cases hw : Operator.written? token with
    | none => exact run_unknown _ _ hs hw tokens
    | some op =>
      rw [Token.ofTrimmed_of_written hw]
      rcases stack with _ | ⟨right, _ | ⟨left, rest⟩⟩
      · rfl
      · rfl
      · simp only [List.map_cons, run, apply_ofInt h, Calc.outcome_bind]
        cases op.exact left right <;> rfl

theorem run_outcome (h : 1 < base) (stack : List Int) (raws : List String) :
    (run (.int base) (stack.map (ofInt base)) (raws.map Token.read)).outcome =
      inBase base (List.map (ofInt base)) ((Machine.run stack raws).mapError Prod.snd) := by
  induction raws generalizing stack with
  | nil => cases stack <;> rfl
  | cons raw raws ih =>
    rw [List.map_cons, run_cons h]
    cases hstep : Machine.step stack raw with
    | error failure =>
      rw [Machine.run_cons_error hstep]
      rfl
    | ok next =>
      rw [Machine.run_cons_ok hstep]
      refine (ih next).trans ?_
      cases Machine.run next raws <;> rfl

/-- The tokens in front of place `i` run through, and the one at that place fails. -/
def FailsAt (base : Value) (tokens : List Token) (i : Nat) (f : Fault) : Prop :=
  ∃ token stack, tokens[i]? = some token ∧ (run base [] (tokens.take i)).outcome = .ok stack ∧
    (run base stack [token]).outcome = .error f

theorem failsAt_of_run (h : 1 < base) {raws : List String} {i : Nat} {failure : Failure}
    (hrun : Machine.run [] raws = .error (i, failure)) :
    FailsAt (.int base) (raws.map Token.read) i (failure.fault base) := by
  obtain ⟨raw, last, hget, htake, hfail⟩ := Machine.exists_step_of_run_error hrun
  have hbefore := run_outcome h [] (raws.take i)
  have hat := run_cons h last raw []
  rw [htake] at hbefore
  rw [hfail] at hat
  refine ⟨Token.read raw, last.map (ofInt base), ?_, ?_, hat⟩
  · rw [List.getElem?_map, hget]
    rfl
  · rw [← List.map_take]
    exact hbefore

theorem describe_bind (base : Nat) (n : Int) :
    ((ofInt base n).describe >>= fun _ => .ok (ofInt base n)) =
      if base < 10 ^ Text.digitLimit then .ok (ofInt base n) else .error .numeralTooLong := by
  rw [describe, base_ofInt]
  simp only [Text.isWritable_natCast]
  split_ifs <;> rfl

theorem evaluatePostfix_outcome (h : 1 < base) (tokens : List Token) :
    (evaluatePostfix (.int base) tokens).outcome =
      (run (.int base) [] tokens).outcome >>= fun
        | [] => .ok (ofInt base 0)
        | x :: _ => x.describe >>= fun _ => .ok x := by
  rw [evaluatePostfix, Calc.outcome_bind]
  congr 1
  funext stack
  cases stack with
  | nil => simp [checkBase_natCast h, zero_eq h]
  | cons x stack =>
    change ((liftM x.describe : Calc String) >>= _).outcome = x.describe >>= fun _ => .ok x
    rw [Calc.outcome_bind]
    cases x.describe <;> rfl

/-- The evaluator gives what the machine gives, and fails at the token where it fails and with the
class of its failure, except that a base too long to be written is refused as a wrong value
wherever it is to be spelt: behind a result from the stack, and for an exponent too large. -/
theorem evaluatePostfix_refines (h : 1 < base) (raws : List String) :
    match Machine.run [] raws with
    | .ok stack =>
      (stack = [] ∨ base < 10 ^ Text.digitLimit →
        ∃ x, (evaluatePostfix (.int base) (raws.map Token.read)).outcome = .ok x ∧
          x.base = base ∧ x.WellFormed ∧ x.toInt = stack.headD 0) ∧
      (stack ≠ [] ∧ ¬ base < 10 ^ Text.digitLimit →
        (evaluatePostfix (.int base) (raws.map Token.read)).outcome = .error .numeralTooLong)
    | .error (i, failure) =>
      ∃ f, (evaluatePostfix (.int base) (raws.map Token.read)).outcome = .error f ∧
        FailsAt (.int base) (raws.map Token.read) i f ∧
        f.toClass =
          if failure.toClass = .exponentOverflow ∧ ¬ base < 10 ^ Text.digitLimit then .wrongValue
          else failure.toClass := by
  have hrun := run_outcome h [] raws
  have houtcome := evaluatePostfix_outcome h (raws.map Token.read)
  rw [List.map_nil] at hrun
  rw [hrun] at houtcome
  cases hmachine : Machine.run [] raws with
  | error e =>
    obtain ⟨i, failure⟩ := e
    rw [hmachine] at houtcome
    exact ⟨_, houtcome, failsAt_of_run h hmachine, failure.toClass_fault base⟩
  | ok stack =>
    rw [hmachine] at houtcome
    have hformed := wellFormed_ofInt h (stack.headD 0)
    have hvalue := toInt_ofInt h (stack.headD 0)
    refine ⟨?_, ?_⟩
    · intro hshort
      refine ⟨ofInt base (stack.headD 0), ?_, rfl, hformed, hvalue⟩
      rcases stack with _ | ⟨n, stack⟩
      · exact houtcome
      · have hbase := hshort.resolve_left (List.cons_ne_nil n stack)
        exact houtcome.trans ((describe_bind base n).trans (if_pos hbase))
    · rintro ⟨hne, hbase⟩
      obtain ⟨n, stack, rfl⟩ := List.exists_cons_of_ne_nil hne
      exact houtcome.trans ((describe_bind base n).trans (if_neg hbase))

theorem evaluatePostfix_refines_wide :
    Machine.run [] ["1"] = .ok [1] ∧
    (evaluatePostfix (.int (10 ^ Text.digitLimit : Nat)) (["1"].map Token.read)).outcome =
      .error .numeralTooLong ∧
    (∃ f, (evaluatePostfix (.int (10 ^ Text.digitLimit : Nat))
        (["2", "18446744073709551616", "^"].map Token.read)).outcome = .error f ∧
      FailsAt (.int (10 ^ Text.digitLimit : Nat))
        (["2", "18446744073709551616", "^"].map Token.read) 2 f ∧ f.toClass = .wrongValue) ∧
    ∃ x, (evaluatePostfix (.int (10 : Nat)) ([" 7", "0", "2", "-", "/\n"].map Token.read)).outcome =
      .ok x ∧ x.WellFormed ∧ x.toInt = -3 := by
  have hwide : 1 < 10 ^ Text.digitLimit := Nat.one_lt_pow (by decide) (by decide)
  have hone : Machine.run [] ["1"] = .ok [1] := by decide +kernel
  have hpower : Machine.run [] ["2", "18446744073709551616", "^"] =
      .error (2, .exponentOverflow 18446744073709551616) := by decide +kernel
  have hquotient : Machine.run [] [" 7", "0", "2", "-", "/\n"] = .ok [-3] := by decide +kernel
  have hresult := evaluatePostfix_refines hwide ["1"]
  have hrefused := evaluatePostfix_refines hwide ["2", "18446744073709551616", "^"]
  have hten := evaluatePostfix_refines (by decide : 1 < 10) [" 7", "0", "2", "-", "/\n"]
  rw [hone] at hresult
  rw [hpower] at hrefused
  rw [hquotient] at hten
  obtain ⟨f, hf, hat, hclass⟩ := hrefused
  obtain ⟨x, hx, -, hformed, hvalue⟩ := hten.1 (Or.inr (lt_self_pow₀ (by decide) (by decide)))
  refine ⟨hone, hresult.2 ⟨by decide, lt_irrefl _⟩, ⟨f, hf, hat, ?_⟩, x, hx, hformed, hvalue⟩
  exact hclass.trans (if_pos ⟨rfl, lt_irrefl _⟩)

end Expression

end Radix
