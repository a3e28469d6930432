import Radix.Number.Operand
import Radix.Proofs.Number.Exactness

namespace Radix

namespace Operand

variable {base : Nat} {left? right? : Option Nat}

/-- An operand as a number beside `x`, if it is a number or a plain integer. -/
def coerce? (x : Number) : Operand → Option Number
  | number y => some y
  | plain (.int n) => some (.ofInt x.base n)
  | plain _ => none

/-- An operation that the number on the left carries out, with what stands on its right. -/
def direct (op : Number → Number → Calc Number) (x : Number) (b : Operand) : Option (Calc Number) :=
  (coerce? x b).map fun y => op x y

/-- An operation that the number on the right carries out, with what stands on its left. -/
def reflected (op : Number → Number → Calc Number) (y : Number) (a : Operand) :
    Option (Calc Number) :=
  (coerce? y a).map fun x => op x y

/-- A number on the left goes first; a number on the right is asked if there is a plain value on
the left. -/
def dispatch (op : Number → Number → Calc Number) : Operand → Operand → Option (Calc Number)
  | number x, b => direct op x b
  | plain v, number y => reflected op y (plain v)
  | plain _, plain _ => none

theorem apply_eq_dispatch (onNumbers : Number → Number → Calc Number)
    (onIntegers : Int → Int → Int) (refusal : Fault) {a b : Operand}
    (h : ¬ ∃ m n, a = plain (.int m) ∧ b = plain (.int n)) :
    apply onNumbers onIntegers refusal a b =
      match dispatch onNumbers a b with
      | some c => do return number (← c)
      | none => Calc.fail refusal := by
  rcases a with x | v <;> rcases b with y | w
  · rfl
  · cases w <;> rfl
  · cases v <;> rfl
  · cases v with
    | int m =>
      cases w with
      | int n => exact absurd ⟨m, n, rfl, rfl⟩ h
      | _ => rfl
    | _ => rfl

def ofInt : Option Nat → Int → Operand
  | none, n => plain (.int n)
  | some base, n => number (.ofInt base n)

/-- An operation that is exact on numbers and on integers is exact on both together. The base is
that of the left operand, if it has one. -/
theorem apply_ofInt {onNumbers : Number → Number → Calc Number} {onIntegers : Int → Int → Int}
    (hexact : ∀ x y : Number, x.WellFormed → y.WellFormed →
      (onNumbers x y).outcome = .ok (.ofInt x.base (onIntegers x.toInt y.toInt)))
    (hleft : ∀ base ∈ left?, 1 < base) (hright : ∀ base ∈ right?, 1 < base) (refusal : Fault)
    (m n : Int) :
    (apply onNumbers onIntegers refusal (ofInt left? m) (ofInt right? n)).outcome =
      .ok (ofInt (left?.or right?) (onIntegers m n)) := by
  have hnumbers : ∀ b c, 1 < b → 1 < c →
      ((onNumbers (.ofInt b m) (.ofInt c n)) >>= fun z => pure (number z)).outcome =
        .ok (ofInt (some b) (onIntegers m n)) := by
    intro b c hb hc
    rw [Calc.outcome_bind, hexact _ _ (Number.wellFormed_ofInt hb m) (Number.wellFormed_ofInt hc n),
      Number.toInt_ofInt hb, Number.toInt_ofInt hc]
    rfl
  cases left? with
  | none =>
    cases right? with
    | none => rfl
    | some c =>
      have hc := hright c rfl
      rw [apply_eq_dispatch _ _ _ (by simp [ofInt])]
      exact hnumbers c c hc hc
  | some b =>
    have hb := hleft b rfl
    rw [apply_eq_dispatch _ _ _ (by simp [ofInt])]
    cases right? with
    | none => exact hnumbers b b hb hb
    | some c => exact hnumbers b c hb (hright c rfl)

theorem negate_ofInt (h : ∀ base ∈ left?, 1 < base) (n : Int) :
    (negate (ofInt left? n)).outcome = .ok (ofInt left? (-n)) := by
  cases left? with
  | none => rfl
  | some b =>
    have hb := h b rfl
    have hnegate := Number.negate_eq (Number.wellFormed_ofInt hb n)
    rw [Number.toInt_ofInt hb, Number.base_ofInt] at hnegate
    simp [negate, ofInt, hnegate]

theorem abs_ofInt (h : ∀ base ∈ left?, 1 < base) (n : Int) :
    (abs (ofInt left? n)).outcome = .ok (ofInt left? |n|) := by
  rw [Int.abs_eq_natAbs]
  cases left? with
  | none => rfl
  | some b =>
    have hb := h b rfl
    have habs := Number.abs_eq (Number.wellFormed_ofInt hb n)
    rw [Number.magnitude_ofInt hb, Number.base_ofInt] at habs
    simp [abs, ofInt, habs]

/-- The operations of two operands that take a plain integer on either side. -/
inductive Operation where
  | sum
  | difference
  | product
  deriving DecidableEq, Repr

namespace Operation

def onOperands : Operation → Operand → Operand → Calc Operand
  | sum => Operand.add
  | difference => Operand.subtract
  | product => Operand.multiply

def onIntegers : Operation → Int → Int → Int
  | sum => (· + ·)
  | difference => (· - ·)
  | product => (· * ·)

theorem onOperands_ofInt (op : Operation) (hleft : ∀ base ∈ left?, 1 < base)
    (hright : ∀ base ∈ right?, 1 < base) (m n : Int) :
    (op.onOperands (ofInt left? m) (ofInt right? n)).outcome =
      .ok (ofInt (left?.or right?) (op.onIntegers m n)) := by
  cases op with
  | sum =>
    apply apply_ofInt _ hleft hright
    intro x y hx hy
    rw [Number.add_eq hx hy]
  | difference =>
    apply apply_ofInt _ hleft hright
    intro x y hx hy
    rw [Number.subtract_eq hx hy]
  | product =>
    apply apply_ofInt _ hleft hright
    intro x y hx hy
    rw [Number.multiply_eq hx hy]

end Operation

end Operand

inductive Mixed where
  | integer (n : Int)
  | number (x : Number)
  | binary (op : Operand.Operation) (left right : Mixed)
  | opposite (operand : Mixed)
  | absolute (operand : Mixed)
  deriving DecidableEq, Repr

namespace Mixed

def numbers : Mixed → List Number
  | integer _ => []
  | number x => [x]
  | binary _ left right => left.numbers ++ right.numbers
  | opposite operand | absolute operand => operand.numbers

def value : Mixed → Int
  | integer n => n
  | number x => x.toInt
  | binary op left right => op.onIntegers left.value right.value
  | opposite operand => -operand.value
  | absolute operand => |operand.value|

/-- What the operators make of the operands, the left one before the right one. -/
def evaluate : Mixed → Calc Operand
  | integer n => pure (.plain (.int n))
  | number x => pure (.number x)
  | binary op left right => do
    let a ← left.evaluate
    let b ← right.evaluate
    op.onOperands a b
  | opposite operand => do (← operand.evaluate).negate
  | absolute operand => do (← operand.evaluate).abs

def base? (t : Mixed) : Option Nat := t.numbers.head?.map Number.base

theorem base?_binary (op : Operand.Operation) (left right : Mixed) :
    (binary op left right).base? = left.base?.or right.base? := by
  rw [base?, numbers, List.head?_append, base?, base?]
  cases left.numbers.head? <;> rfl

theorem one_lt_of_mem_base? {t : Mixed} (h : ∀ x ∈ t.numbers, x.WellFormed) :
    ∀ base ∈ t.base?, 1 < base := by
  intro base hbase
  obtain ⟨x, hx, rfl⟩ := Option.map_eq_some_iff.1 hbase
  exact (h x (List.mem_of_mem_head? hx)).one_lt_base

theorem evaluate_outcome {t : Mixed} (h : ∀ x ∈ t.numbers, x.WellFormed) :
    t.evaluate.outcome = .ok (.ofInt t.base? t.value) := by
  induction t with
  | integer n => rfl
  | number x =>
    have hx := h x (List.mem_singleton_self x)
    change Except.ok (Operand.number x) = .ok (.number (.ofInt x.base x.toInt))
    rw [← hx.eq_ofInt]
  | binary op left right ihleft ihright =>
    obtain ⟨hleft, hright⟩ := List.forall_mem_append.1 h
    have hstep := op.onOperands_ofInt (one_lt_of_mem_base? hleft) (one_lt_of_mem_base? hright)
      left.value right.value
    rw [evaluate, Calc.outcome_bind, ihleft hleft, base?_binary, value, ← hstep]
    change (right.evaluate >>= _).outcome = _
    rw [Calc.outcome_bind, ihright hright]
    rfl
  | opposite operand ih =>
    rw [evaluate, Calc.outcome_bind, ih h]
    exact Operand.negate_ofInt (one_lt_of_mem_base? h) operand.value
  | absolute operand ih =>
    rw [evaluate, Calc.outcome_bind, ih h]
    exact Operand.abs_ofInt (one_lt_of_mem_base? h) operand.value

/-- An expression with numbers in it comes to a number of its value over the integers, in the base
of its leftmost number. Without a number it comes to that value as a plain integer. -/
theorem evaluate_exact {t : Mixed} (h : ∀ x ∈ t.numbers, x.WellFormed) :
    (∀ first, t.numbers.head? = some first →
      ∃ z, t.evaluate.outcome = .ok (.number z) ∧ z.Denotes first.base t.value) ∧
    (t.numbers = [] → t.evaluate.outcome = .ok (.plain (.int t.value))) := by
  have houtcome := evaluate_outcome h
  constructor
  · intro first hfirst
    have hone := (h first (List.mem_of_mem_head? hfirst)).one_lt_base
    rw [base?, hfirst] at houtcome
    exact ⟨_, houtcome, Number.denotes_ofInt hone t.value⟩
  · intro hnone
    rw [base?, hnone] at houtcome
    exact houtcome

theorem evaluate_exact_seven :
    (⟨7, [4, 1], false⟩ : Number).WellFormed ∧ (⟨10, [9], true⟩ : Number).WellFormed ∧
    (binary .product
      (absolute (binary .difference (integer 3) (number ⟨7, [4, 1], false⟩)))
      (binary .difference (binary .sum (integer 2) (integer 3))
        (number ⟨10, [9], true⟩))).evaluate.outcome =
      .ok (.number ⟨7, [0, 2, 2], false⟩) := by
  have ha : Number.Denotes ⟨7, [4, 1], false⟩ 7 11 := .of_eq (by decide) (by decide +kernel)
  have hb : Number.Denotes ⟨10, [9], true⟩ 10 (-9) := .of_eq (by decide) (by decide +kernel)
  have hformed : ∀ x ∈ (binary .product
      (absolute (binary .difference (integer 3) (number ⟨7, [4, 1], false⟩)))
      (binary .difference (binary .sum (integer 2) (integer 3))
        (number ⟨10, [9], true⟩))).numbers, x.WellFormed :=
    List.forall_mem_cons.2 ⟨ha.wellFormed, List.forall_mem_singleton.2 hb.wellFormed⟩
  obtain ⟨z, hz, hdenotes⟩ := (evaluate_exact hformed).1 _ rfl
  have hnumber : z = ⟨7, [0, 2, 2], false⟩ := hdenotes.eq_ofInt.trans (by decide +kernel)
  rw [hnumber] at hz
  exact ⟨ha.wellFormed, hb.wellFormed, hz⟩

end Mixed

end Radix
