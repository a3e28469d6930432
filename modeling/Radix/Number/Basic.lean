import Radix.Limbs.Recast
import Radix.Value

namespace Radix

/-- The base whose limb products, with a carry, fit a signed 64-bit word: `⌊√(2 ^ 63)⌋`. -/
def defaultBase : Nat := 3037000499

/-- A signed integer as limbs in a base, least significant first. -/
structure Number where
  base : Nat
  limbs : List Nat
  negative : Bool
  deriving DecidableEq, Repr

namespace Number

/-- The one form of each integer in each base: canonical limbs, and zero unsigned. -/
structure WellFormed (x : Number) : Prop where
  one_lt_base : 1 < x.base
  canonical : Limbs.Canonical x.base x.limbs
  zero_unsigned : x.limbs = [0] → x.negative = false

def integers (x : Number) : List Int := x.limbs.map Int.ofNat

def magnitude (x : Number) : Nat := Limbs.value x.base x.limbs

def toInt (x : Number) : Int := if x.negative then -(x.magnitude : Int) else x.magnitude

def isZero (x : Number) : Bool := x.limbs = [0]

/-- Whether the magnitude is one; the sign does not matter. -/
def isOne (x : Number) : Bool := x.limbs = [1]

def length (x : Number) : Nat := x.limbs.length

def magnitudeText (x : Number) : String := Limbs.toDecimal x.base x.limbs

def text (x : Number) : String :=
  if x.negative && !x.isZero then "-" ++ x.magnitudeText else x.magnitudeText

def limbsText (x : Number) : String :=
  toString x.base ++ ": [" ++ ", ".intercalate (x.limbs.map toString) ++ "]"

def constructionText (x : Number) : String :=
  "BigNumber('" ++ x.text ++ "', base=" ++ toString x.base ++ ")"

def ofInt (base : Nat) (n : Int) : Number := ⟨base, Limbs.ofNat base n.natAbs, n < 0⟩

end Number

end Radix
