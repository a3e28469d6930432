import Radix.Calc
import Radix.Text.Digit

namespace Radix

def checkBase : Value → Except Fault Nat
  | .int n => if n ≤ 1 then .error (Fault.told (.baseTooSmall n)) else .ok n.toNat
  | v => .error (.baseNotInteger v.kind)

namespace Number

/-- A number of given limbs. High zeros are dropped first; of the rest the lowest limb outside
the base is the one that is refused. Zero takes no sign. -/
def ofLimbs (base : Nat) (negative : Bool) (limbs : List Int) : Except Fault Number :=
  match (Limbs.trim limbs).find? fun limb : Int => decide (limb < 0 ∨ base ≤ limb) with
  | some limb => .error (Fault.told (.limbOutside limb base))
  | none =>
    let limbs := (Limbs.trim limbs).map Int.toNat
    .ok ⟨base, limbs, negative && limbs ≠ [0]⟩

def ofComputed (base : Nat) (negative : Bool) (limbs : List Nat) : Except Fault Number :=
  ofLimbs base negative (limbs.map Int.ofNat)

def zero (base : Nat) : Except Fault Number := ofComputed base false [0]

def one (base : Nat) : Except Fault Number := ofComputed base false [1]

/-- Whether there is a minus sign, and the digits, of a text `-?[0-9]+`. -/
def signedDigits? : List Char → Option (Bool × List Char)
  | '-' :: c :: cs => if (c :: cs).all Text.isDigit then some (true, c :: cs) else none
  | c :: cs => if (c :: cs).all Text.isDigit then some (false, c :: cs) else none
  | [] => none

def ofText (base : Nat) (text : String) : Except Fault Number :=
  match signedDigits? text.toList with
  | none => .error (.malformedNumber text)
  | some (negative, digits) =>
    let limbs := Limbs.trim (Limbs.ofDigits base (digits.map Text.digitValue))
    .ok ⟨base, limbs, negative && limbs ≠ [0]⟩

/-- A number from a decimal text or an integer, and from nothing else. -/
def ofValue (base : Nat) : Value → Except Fault Number
  | .int n => .ok (ofInt base n)
  | .text s => ofText base s
  | v => .error (.notNumeric v)

def withSign (x : Number) (negative : Bool) : Except Fault Number :=
  ofComputed x.base negative x.limbs

def abs (x : Number) : Except Fault Number :=
  if x.negative then x.withSign false else .ok x

def negate (x : Number) : Except Fault Number := x.withSign !x.negative

/-- The base and the limbs, least significant first. The limbs are below the base, so all can be
written if the base can. -/
def describe (x : Number) : Except Fault String :=
  if Text.isWritable x.base then .ok x.limbsText else .error .numeralTooLong

def construction (x : Number) : Except Fault String :=
  if Text.isWritable x.base then .ok x.constructionText else .error .numeralTooLong

def conversionRecord (source target : Nat) : Record where
  level := .debug
  channel := Channel.number
  message := "Converting operand from base " ++ toString source ++ " to base " ++ toString target
  attributes := [("base", .ofNat target)]
  numerals := [source, target]

/-- The same number in another base, by way of its decimal text. -/
def convert (x : Number) (base : Nat) : Calc Number :=
  if base = x.base then pure x
  else do
    Calc.write (conversionRecord x.base base)
    let magnitude ← ofText base x.magnitudeText
    ofComputed base x.negative magnitude.limbs

end Number

end Radix
