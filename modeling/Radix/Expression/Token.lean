import Radix.Expression.Operator
import Radix.Text.Digit
import Radix.Text.Quoted

namespace Radix

inductive Token where
  | number (digits : String)
  | operator (op : Operator)
  | opening
  | closing
  | unknown (text : String)
  deriving DecidableEq, Repr

namespace Token

/-- The token that a trimmed text is: ASCII digits, an operator, a parenthesis, or nothing known. -/
def ofTrimmed (text : String) : Token :=
  if text.toList ≠ [] ∧ text.toList.all Text.isDigit then .number text
  else
    match text.toList with
    | ['('] => .opening
    | [')'] => .closing
    | [c] => ((Operator.ofSymbol? c).map .operator).getD (.unknown text)
    | _ => .unknown text

def read (raw : String) : Token := ofTrimmed (Text.trim raw)

def text : Token → String
  | .number digits => digits
  | .operator op => toString op.symbol
  | .opening => "("
  | .closing => ")"
  | .unknown text => text

def kindName : Token → String
  | .number _ => "number"
  | .operator _ => "operator"
  | .opening => "open"
  | .closing => "close"
  | .unknown _ => "error"

/-- Puts a digit in front of the first of the pieces that follow it. -/
def prolong (c : Char) : List (List Char) → List (List Char)
  | [] => [[c]]
  | piece :: pieces => (c :: piece) :: pieces

/-- Cuts a line into runs of ASCII digits and single characters; whitespace separates and is
dropped. -/
def pieces : List Char → List (List Char)
  | [] => []
  | c :: cs =>
    if Text.isBlank c then pieces cs
    else if Text.isDigit c && cs.head?.any Text.isDigit then prolong c (pieces cs)
    else [c] :: pieces cs

def split (line : String) : List String := (pieces line.toList).map String.ofList

def listing (tokens : List Token) : String :=
  Text.bracketed (tokens.map fun token => Text.quoted token.text)

end Token

end Radix
