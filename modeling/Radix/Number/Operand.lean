import Radix.Number.Product
import Radix.Number.Sum

namespace Radix

/-- What an operator may stand beside: a number, or a plain value. -/
inductive Operand where
  | number (x : Number)
  | plain (v : Value)

namespace Operand

def kind : Operand → Kind
  | number _ => .number
  | plain v => v.kind

def isSequence : Kind → Bool
  | .text | .list => true
  | _ => false

/-- Two operands as numbers in the base of the one that has a base. A plain integer joins the
base of the number beside it, and no other plain value is taken. -/
def pair? : Operand → Operand → Option (Number × Number)
  | number x, number y => some (x, y)
  | number x, plain (.int n) => some (x, .ofInt x.base n)
  | plain (.int n), number y => some (.ofInt y.base n, y)
  | _, _ => none

/-- An arithmetic operation on numbers and on plain integers; two plain integers give a plain
integer. -/
def apply (onNumbers : Number → Number → Calc Number) (onIntegers : Int → Int → Int)
    (refusal : Fault) (a b : Operand) : Calc Operand :=
  match a, b with
  | plain (.int m), plain (.int n) => pure (plain (.int (onIntegers m n)))
  | a, b =>
    match pair? a b with
    | some (x, y) => do return number (← onNumbers x y)
    | none => Calc.fail refusal

def add (a b : Operand) : Calc Operand :=
  let refusal : Fault :=
    if isSequence a.kind then .notJoinable a.kind b.kind
    else .unsupportedOperands "+" a.kind b.kind
  apply Number.add (· + ·) refusal a b

def subtract (a b : Operand) : Calc Operand :=
  apply Number.subtract (· - ·) (.unsupportedOperands "-" a.kind b.kind) a b

def multiply (a b : Operand) : Calc Operand :=
  let refusal : Fault :=
    if isSequence a.kind then .notCountable b.kind
    else if isSequence b.kind then .notCountable a.kind
    else .unsupportedOperands "*" a.kind b.kind
  apply Number.multiply (· * ·) refusal a b

def power (a b : Operand) : Calc Operand :=
  match a, b with
  | number x, plain (.int n) => do return number (← x.power n)
  | a, b => Calc.fail (.unsupportedOperands "** or pow()" a.kind b.kind)

def negate : Operand → Calc Operand
  | number x => do return number (← x.negate)
  | plain (.int n) => pure (plain (.int (-n)))
  | plain v => Calc.fail (.unsupportedOperand "unary -" v.kind)

def abs : Operand → Calc Operand
  | number x => do return number (← x.abs)
  | plain (.int n) => pure (plain (.int n.natAbs))
  | plain v => Calc.fail (.unsupportedOperand "abs()" v.kind)

/-- Equality of a number and anything: numbers and integers by value, all else never. -/
def equal (a b : Operand) : Calc Bool :=
  match a, b with
  | plain (.int m), plain (.int n) => pure (m == n)
  | plain (.int n), number y => Number.equal y (.ofInt y.base n)
  | a, b =>
    match pair? a b with
    | some (x, y) => Number.equal x y
    | none => pure false

end Operand

end Radix
