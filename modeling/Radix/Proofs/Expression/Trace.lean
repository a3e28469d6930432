import Radix.Proofs.Expression.Alternation

namespace Radix

namespace Calc

theorem log_bind {α β : Type} (x : Calc α) (f : α → Calc β) :
    (x >>= f).log = x.log ++ match x.outcome with
      | .ok a => (f a).log
      | .error _ => [] := by
  obtain ⟨outcome, log⟩ := x
  cases outcome with
  | ok a => rfl
  | error e => exact (List.append_nil log).symm

end Calc

/-- An operator between two operands. -/
structure Application where
  op : Operator
  left : Int
  right : Int
  deriving DecidableEq, Repr

/-- Whether an application takes a negative exponent for zero: one that a signed 64-bit word
holds. -/
def Application.isWarned (a : Application) : Bool :=
  a.op = .power ∧ -2 ^ 63 ≤ a.right ∧ a.right < 0

def warned (applications : List Application) : List Record :=
  (applications.filter Application.isWarned).map fun a => Number.exponentRecord a.right

theorem warned_append (before after : List Application) :
    warned (before ++ after) = warned before ++ warned after := by
  rw [warned, List.filter_append, List.map_append]
  rfl

namespace Machine

variable {stack next last : List Int} {raw : String}

def application? (stack : List Int) (token : String) : Option Application :=
  match Operator.written? token, stack with
  | some op, right :: left :: _ => some ⟨op, left, right⟩
  | _, _ => none

/-- The applications of a run in their order, up to the first one that fails. -/
def applications : List Int → List String → List Application
  | _, [] => []
  | stack, raw :: raws =>
    (application? stack (Text.trim raw)).toList ++
      match step stack raw with
      | .ok next => applications next raws
      | .error _ => []

/-- The token that a run stops at because it is neither a number nor an operator. -/
def rejected? : Except (Nat × Failure) (List Int) → Option String
  | .error (_, .invalidToken token) => some token
  | _ => none

theorem not_isNumeral_of_written {token : String} {op : Operator}
    (h : Operator.written? token = some op) : ¬ Text.IsNumeral token := by
  intro hnumeral
  have hnumber := Token.ofTrimmed_of_isNumeral hnumeral
  rw [Token.ofTrimmed_of_written h] at hnumber
  cases hnumber

theorem step_number (h : Text.IsNumeral (Text.trim raw)) (stack : List Int) :
    step stack raw = .ok (Text.decimalValue (Text.trim raw).toList :: stack) := if_pos h

theorem step_unknown (hs : ¬ Text.IsNumeral (Text.trim raw))
    (hw : Operator.written? (Text.trim raw) = none) (stack : List Int) :
    step stack raw = .error (.invalidToken (Text.trim raw)) := by
  unfold step accept
  rw [if_neg hs, hw]

theorem step_operator {op : Operator} (hw : Operator.written? (Text.trim raw) = some op)
    (right left : Int) (rest : List Int) :
    step (right :: left :: rest) raw = (op.exact left right).map (· :: rest) := by
  unfold step accept
  rw [if_neg (not_isNumeral_of_written hw), hw]

theorem step_short {op : Operator} (hw : Operator.written? (Text.trim raw) = some op)
    (hshort : stack.length < 2) : step stack raw = .error (.stackUnderflow op stack.length) := by
  unfold step accept
  rw [if_neg (not_isNumeral_of_written hw), hw]
  match stack, hshort with
  | [], _ => rfl
  | [_], _ => rfl

/-- What a token is to the machine: a number, nothing known, or an operator, with its operands on
the stack or without. -/
inductive Reading (stack : List Int) (raw : String) : Prop where
  | number : Text.IsNumeral (Text.trim raw) → Reading stack raw
  | unknown : ¬ Text.IsNumeral (Text.trim raw) → Operator.written? (Text.trim raw) = none →
      Reading stack raw
  | short {op : Operator} : Operator.written? (Text.trim raw) = some op → stack.length < 2 →
      Reading stack raw
  | operator {op : Operator} (right left : Int) (rest : List Int) :
      Operator.written? (Text.trim raw) = some op → stack = right :: left :: rest →
      Reading stack raw

theorem reading (stack : List Int) (raw : String) : Reading stack raw := by
  by_cases hs : Text.IsNumeral (Text.trim raw)
  · exact .number hs
  · cases hw : Operator.written? (Text.trim raw) with
    | none => exact .unknown hs hw
    | some op =>
      match stack with
      | [] | [_] => exact .short hw (by simp)
      | right :: left :: rest => exact .operator right left rest hw rfl

theorem application?_number {token : String} (h : Text.IsNumeral token) (stack : List Int) :
    application? stack token = none := by
  have hw : Operator.written? token = none := by
    by_contra hwritten
    obtain ⟨op, hop⟩ := Option.ne_none_iff_exists'.1 hwritten
    exact not_isNumeral_of_written hop h
  unfold application?
  rw [hw]

theorem application?_unknown {token : String} (h : Operator.written? token = none)
    (stack : List Int) : application? stack token = none := by
  unfold application?
  rw [h]

theorem application?_operator {token : String} {op : Operator}
    (h : Operator.written? token = some op) (right left : Int) (rest : List Int) :
    application? (right :: left :: rest) token = some ⟨op, left, right⟩ := by
  unfold application?
  rw [h]

theorem application?_short (h : stack.length < 2) (token : String) :
    application? stack token = none := by
  unfold application?
  match stack, h with
  | [], _ => cases Operator.written? token <;> rfl
  | [_], _ => cases Operator.written? token <;> rfl

theorem applications_cons_ok (h : step stack raw = .ok next) (raws : List String) :
    applications stack (raw :: raws) =
      (application? stack (Text.trim raw)).toList ++ applications next raws := by
  rw [applications, h]

theorem applications_cons_error {failure : Failure} (h : step stack raw = .error failure)
    (raws : List String) :
    applications stack (raw :: raws) = (application? stack (Text.trim raw)).toList := by
  rw [applications, h, List.append_nil]

theorem rejected?_run_cons (h : step stack raw = .ok next) (raws : List String) :
    rejected? (run stack (raw :: raws)) = rejected? (run next raws) := by
  rw [run_cons_ok h]
  cases run next raws with
  | ok last => rfl
  | error e =>
    obtain ⟨i, failure⟩ := e
    cases failure <;> rfl

end Machine

namespace Expression

open Number

variable {base : Nat}

theorem warnings_eq (op : Operator) (left right : Int) :
    warnings op right = warned [⟨op, left, right⟩] := by
  cases op with
  | power =>
    have hwarned : Application.isWarned ⟨.power, left, right⟩ =
        decide (-2 ^ 63 ≤ right ∧ right < 0) := by
      simp only [Application.isWarned, true_and]
    rw [warnings, warned, List.filter_singleton, hwarned]
    by_cases hnegative : -2 ^ 63 ≤ right ∧ right < 0
    · rw [if_pos hnegative, decide_eq_true hnegative]
      rfl
    · rw [if_neg hnegative, decide_eq_false hnegative]
      rfl
  | _ => rfl

/-- What a run writes: a record of each exponent that was taken for zero, and one of the token that
it stops at, if that is an unknown one. -/
theorem run_log (h : 1 < base) (stack : List Int) (raws : List String) :
    (run (.int base) (stack.map (ofInt base)) (raws.map Token.read)).log =
      warned (Machine.applications stack raws) ++
        ((Machine.rejected? (Machine.run stack raws)).map (rejectionRecord .after)).toList := by
  induction raws generalizing stack with
  | nil => cases stack <;> rfl
  | cons raw raws ih =>
    rw [List.map_cons, Token.read]
    cases Machine.reading stack raw with
    | number hs =>
      have hstep := Machine.step_number hs stack
      rw [Machine.applications_cons_ok hstep, Machine.rejected?_run_cons hstep,
        Machine.application?_number hs, Token.ofTrimmed_of_isNumeral hs,
        run, checkBase_natCast h, Calc.lift_ok, Calc.ok_bind, ofText_numeral h hs, Calc.lift_ok,
        Calc.ok_bind]
      exact ih (Text.decimalValue (Text.trim raw).toList :: stack)
    | unknown hs hw =>
      have hstep := Machine.step_unknown hs hw stack
      rw [Machine.applications_cons_error hstep, Machine.run_cons_error hstep,
        Machine.application?_unknown hw]
      obtain ⟨hmem, htext⟩ := Token.ofTrimmed_of_not_written hs hw
      generalize Token.ofTrimmed (Text.trim raw) = refused at hmem htext
      simp only [List.mem_cons, List.not_mem_nil, or_false] at hmem
      rw [← htext]
      rcases hmem with rfl | rfl | rfl <;> cases stack <;> rfl
    | short hw hshort =>
      have hstep := Machine.step_short hw hshort
      rw [Machine.applications_cons_error hstep, Machine.run_cons_error hstep,
        Machine.application?_short hshort, Token.ofTrimmed_of_written hw]
      rcases stack with _ | ⟨right, _ | ⟨left, rest⟩⟩
      · rfl
      · rfl
      · exact absurd hshort (by simp)
    | @operator op right left rest hw hstack =>
      have hstep := Machine.step_operator hw right left rest
      have happlied := Machine.application?_operator hw right left rest
      rw [hstack, Token.ofTrimmed_of_written hw]
      simp only [List.map_cons, run, apply_ofInt h, Calc.log_bind]
      rw [warnings_eq op left right]
      cases hexact : op.exact left right with
      | error failure =>
        have hclass := Operator.toClass_mem_of_exact hexact
        rw [hexact] at hstep
        rw [Machine.applications_cons_error hstep, Machine.run_cons_error hstep, happlied]
        cases failure with
        | invalidToken token => simp [Operator.classes, Failure.toClass] at hclass
        | _ => rfl
      | ok n =>
        rw [hexact] at hstep
        rw [Machine.applications_cons_ok hstep, Machine.rejected?_run_cons hstep, happlied,
          warned_append, List.append_assoc]
        exact congrArg (warned [⟨op, left, right⟩] ++ ·) (ih (n :: rest))

end Expression

end Radix
