namespace Radix

inductive Operator where
  | plus
  | minus
  | times
  | divide
  | modulo
  | power
  deriving DecidableEq, Repr

inductive Associativity where
  | left
  | right
  deriving DecidableEq, Repr

def Associativity.name : Associativity → String
  | .left => "left"
  | .right => "right"

namespace Operator

def all : List Operator := [.plus, .minus, .times, .divide, .modulo, .power]

def symbol : Operator → Char
  | .plus => '+'
  | .minus => '-'
  | .times => '*'
  | .divide => '/'
  | .modulo => '%'
  | .power => '^'

def ofSymbol? (c : Char) : Option Operator := all.find? (·.symbol == c)

def precedence : Operator → Nat
  | .plus | .minus => 11
  | .times | .divide | .modulo => 12
  | .power => 14

def associativity : Operator → Associativity
  | .power => .right
  | _ => .left

/-- Whether a waiting operator is applied before `current` is read: it binds tighter, or as
tight and `current` groups to the left. -/
def yieldsTo (current waiting : Operator) : Bool :=
  current.precedence < waiting.precedence ||
    (current.precedence == waiting.precedence && current.associativity == .left)

end Operator

/-- Where operators stand in an expression: between their operands or after them. -/
inductive Notation where
  | between
  | after
  deriving DecidableEq, Repr

def Notation.name : Notation → String
  | .between => "infix"
  | .after => "postfix"

end Radix
