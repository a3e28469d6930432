import Radix.Expression.Reorder
import Radix.Number.Bisection

namespace Radix.Expression

def maxExponent : Int := 0x7fffffffffffffff
def minExponent : Int := -0x8000000000000000

/-- The integer that an exponent denotes, if a signed 64-bit word holds it. The bound is compared
in the exponent's own base. -/
def exponent64 (x : Number) : Calc Int := do
  let limit := if x.negative then minExponent else maxExponent
  match ← Number.compare x (.ofInt x.base limit) with
  | .gt => Calc.fail (Fault.told (.exponentOverflow x))
  | _ => return x.toInt

def apply (op : Operator) (left right : Number) : Calc Number :=
  match op with
  | .plus => left.add right
  | .minus => left.subtract right
  | .times => left.multiply right
  | .divide => left.divide right
  | .modulo => left.modulo right
  | .power => do left.power (← exponent64 right)

/-- Runs tokens on a stack of operands: a number is pushed, an operator takes its right operand
and then its left one and pushes the result. The base is examined when a number is read in it. -/
def run (base : Value) : List Number → List Token → Calc (List Number)
  | stack, [] => pure stack
  | stack, .number digits :: tokens => do
    let x ← Number.ofText (← checkBase base) digits
    run base (x :: stack) tokens
  | right :: left :: stack, .operator op :: tokens => do
    let x ← apply op left right
    run base (x :: stack) tokens
  | stack, .operator op :: _ => Calc.fail (.stackUnderflow op stack.length)
  | _, .opening :: _ => reject .after Token.opening.text
  | _, .closing :: _ => reject .after Token.closing.text
  | _, .unknown text :: _ => reject .after text

def resultRecord (x : Number) (description : String) : Record where
  level := .debug
  channel := Channel.postfixed
  message := "Evaluated to: " ++ description
  attributes := [("notation", .text Notation.after.name),
    ("result_limbs", .list (x.limbs.map .ofNat))]

/-- The value of tokens whose operators stand after their operands: the top of the stack that
they leave, or zero when they leave none. A result whose limbs cannot be written is refused. -/
def evaluatePostfix (base : Value) (tokens : List Token) : Calc Number := do
  match ← run base [] tokens with
  | [] => Number.zero (← checkBase base)
  | x :: _ =>
    Calc.write (resultRecord x (← x.describe))
    return x

def evaluate (order : Notation) (base : Value) (tokens : List Token) : Calc Number :=
  match order with
  | .between => do evaluatePostfix base (← toPostfix tokens)
  | .after => evaluatePostfix base tokens

def evaluateLine (order : Notation) (base : Value) (line : String) : Calc Number :=
  evaluate order base ((Token.split line).map Token.read)

end Radix.Expression
