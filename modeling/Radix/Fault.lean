import Radix.Expression.Operator
import Radix.Number.Basic
import Radix.Text.Integer
import Radix.Text.Literal

namespace Radix

/-- Why an operation has no answer. -/
inductive Fault where
  | malformedNumber (text : String)
  | notNumeric (value : Value)
  | baseNotInteger (kind : Kind)
  | baseTooSmall (base : Int)
  | limbOutside (limb : Int) (base : Nat)
  | exponentNotInteger (kind : Kind)
  | divisionByZero (dividend : Number)
  | negativeModulus (modulus : Number)
  | negativeOperand (operand : Number)
  | exponentOverflow (exponent : Number)
  | invalidToken (order : Notation) (token : String)
  | closingUnmatched
  | openingUnmatched
  | stackUnderflow (operator : Operator) (found : Nat)
  | unsupportedOperands (symbol : String) (left right : Kind)
  | unsupportedOperand (operation : String) (kind : Kind)
  | notJoinable (left right : Kind)
  | notCountable (count : Kind)
  | notOrdered (left right : Kind)
  | partMissing (kind : Kind) (part : String)
  | unknownSymbol (symbol : String)
  /-- A name of a log level means some other text. -/
  | levelUnknown (text : String)
  /-- A name of a log level means what is no level at all. -/
  | levelInvalid (literal : String)
  /-- An integer has too many digits to be written. -/
  | numeralTooLong
  | baseZero
  /-- A computation on limbs ran past the limbs it was given. -/
  | limbsExhausted
  /-- A search did not end within the width of its interval. -/
  | searchStalled
  deriving Inhabited

namespace Fault

inductive Class where
  | malformedNumber
  | wrongType
  | wrongValue
  | divisionByZero
  | negativeModulus
  | negativeOperand
  | exponentOverflow
  | invalidToken
  | unbalancedParentheses
  | stackUnderflow
  | partMissing
  | unknownSymbol
  | baseZero
  | inconsistency
  deriving DecidableEq, Repr

def toClass : Fault → Class
  | malformedNumber _ | notNumeric _ => .malformedNumber
  | baseNotInteger _ | exponentNotInteger _ | unsupportedOperands ..
  | unsupportedOperand .. | notJoinable .. | notCountable _ | notOrdered ..
  | levelInvalid _ => .wrongType
  | baseTooSmall _ | limbOutside .. | levelUnknown _ | numeralTooLong => .wrongValue
  | divisionByZero _ => .divisionByZero
  | negativeModulus _ => .negativeModulus
  | negativeOperand _ => .negativeOperand
  | exponentOverflow _ => .exponentOverflow
  | invalidToken .. => .invalidToken
  | closingUnmatched | openingUnmatched => .unbalancedParentheses
  | stackUnderflow .. => .stackUnderflow
  | partMissing .. => .partMissing
  | unknownSymbol _ => .unknownSymbol
  | baseZero => .baseZero
  | limbsExhausted | searchStalled => .inconsistency

/-- Whether a session reports the fault and goes on with its next line. -/
def isReportable (f : Fault) : Bool :=
  match f.toClass with
  | .malformedNumber | .divisionByZero | .negativeModulus | .negativeOperand
  | .exponentOverflow | .invalidToken | .unbalancedParentheses | .stackUnderflow => true
  | .wrongType | .wrongValue | .partMissing | .unknownSymbol | .baseZero
  | .inconsistency => false

/-- The integers that the message spells and that may be of any length. -/
def numerals : Fault → List Int
  | baseTooSmall base => [base]
  | limbOutside limb base => [limb, base]
  | exponentOverflow exponent => [exponent.base]
  | _ => []

/-- The fault that is told: a message that would spell too long an integer cannot be told. -/
def told (f : Fault) : Fault := if f.numerals.all Text.isWritable then f else .numeralTooLong

def message : Fault → String
  | malformedNumber text => "Malformed number: " ++ Text.quoted text
  | notNumeric value => "Cannot build a number from " ++ value.literal
  | baseNotInteger kind => "Base must be an integer, got " ++ kind.name
  | baseTooSmall base => "Base must be greater than 1, got " ++ toString base
  | limbOutside limb base => "Limb " ++ toString limb ++ " outside [0, " ++ toString base ++ ")"
  | exponentNotInteger kind => "Exponent must be an integer, got " ++ kind.name
  | divisionByZero dividend => "Cannot divide " ++ dividend.text ++ " by zero"
  | negativeModulus modulus => "Modulus must be non-negative, got " ++ modulus.text
  | negativeOperand operand => "Cannot take the square root of " ++ operand.text
  | exponentOverflow exponent =>
    "Exponent of " ++ toString exponent.length ++ " limbs in base " ++ toString exponent.base ++
      " does not fit in 64 bits"
  | invalidToken .between token => "Invalid token in expression: " ++ Text.quoted token
  | invalidToken .after token => "Invalid token in postfix expression: " ++ Text.quoted token
  | closingUnmatched => "Closing parenthesis without a matching '('"
  | openingUnmatched => "Opening parenthesis without a matching ')'"
  | stackUnderflow operator found =>
    "Operator " ++ Text.quoted (toString operator.symbol) ++ " needs two operands, found " ++
      toString found
  | unsupportedOperands symbol left right =>
    "unsupported operand type(s) for " ++ symbol ++ ": '" ++ left.name ++ "' and '" ++
      right.name ++ "'"
  | unsupportedOperand operation kind =>
    "bad operand type for " ++ operation ++ ": '" ++ kind.name ++ "'"
  | notJoinable left right =>
    "can only concatenate " ++ left.name ++ " (not \"" ++ right.name ++ "\") to " ++ left.name
  | notCountable count => "can't multiply sequence by non-int of type '" ++ count.name ++ "'"
  | notOrdered left right =>
    "'<=' not supported between instances of '" ++ left.name ++ "' and '" ++ right.name ++ "'"
  | partMissing kind part => "'" ++ kind.name ++ "' object has no attribute '" ++ part ++ "'"
  | unknownSymbol symbol => Text.quoted symbol
  | levelUnknown text => "Unknown level: " ++ Text.quoted text
  | levelInvalid literal => "Level not an integer or a valid string: " ++ literal
  | numeralTooLong =>
    "Exceeds the limit (" ++ toString Text.digitLimit ++ " digits) for integer string " ++
      "conversion; use sys.set_int_max_str_digits() to increase the limit"
  | baseZero => "integer division or modulo by zero"
  | limbsExhausted => "list index out of range"
  | searchStalled => "search does not end"

end Fault

end Radix
