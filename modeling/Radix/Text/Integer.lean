import Radix.Text.Digit

namespace Radix.Text

/-- Whitespace around an integer: any but the four ASCII separators. -/
def isIntegerBlank (c : Char) : Bool := isBlank c && !(0x1c ≤ c.toNat && c.toNat ≤ 0x1f)

/-- The values of decimal digits of any script; single underscores may stand between digits. -/
def groupedDigits? : List Char → Option (List Nat)
  | [] => none
  | [c] => (scriptDigit? c).map ([·])
  | c :: '_' :: cs => do return (← scriptDigit? c) :: (← groupedDigits? cs)
  | c :: cs => do return (← scriptDigit? c) :: (← groupedDigits? cs)

/-- The most decimal digits that an integer is read or written with. -/
def digitLimit : Nat := 4300

def natural? (cs : List Char) : Option Nat := do
  let digits ← groupedDigits? cs
  if digitLimit < digits.length then none else some (digits.foldl (10 * · + ·) 0)

/-- An integer as a person may write it: blanks around it, a sign, digits of any script. -/
def integer? (text : String) : Option Int :=
  match trimBy isIntegerBlank text.toList with
  | '-' :: cs => (natural? cs).map fun n => -(n : Int)
  | '+' :: cs => (natural? cs).map Int.ofNat
  | cs => (natural? cs).map Int.ofNat

/-- Whether a number is below a power of ten, and so has no more digits than its exponent. -/
def fitsDigits : Nat → Nat → Bool
  | 0, n => n == 0
  | count + 1, n => n < 10 || fitsDigits count (n / 10)

/-- Whether an integer is short enough to be written; its sign does not count. -/
def isWritable (n : Int) : Bool := fitsDigits digitLimit n.natAbs

/-- Whether a text that follows a minus sign makes it a negative number: digits of any script,
perhaps with a point before the last of them. One newline at the end is overlooked. -/
def isUnsignedDecimal (cs : List Char) : Bool :=
  let isScriptDigit (c : Char) : Bool := (scriptDigit? c).isSome
  let cs := if cs.getLast? = some '\n' then cs.dropLast else cs
  match cs.dropWhile isScriptDigit with
  | [] => !cs.isEmpty
  | '.' :: fraction => !fraction.isEmpty && fraction.all isScriptDigit
  | _ => false

end Radix.Text
