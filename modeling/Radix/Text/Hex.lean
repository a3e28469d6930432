namespace Radix.Text

/-- Lowercase hexadecimal digits, padded with zeros on the left to a least width. -/
def hexDigits (width n : Nat) : List Char :=
  let digits := Nat.toDigits 16 n
  List.replicate (width - digits.length) '0' ++ digits

/-- An integer in hexadecimal: `0x1f`, `-0x1f`, `0x0`. -/
def hexText (n : Int) : String :=
  (if n < 0 then "-0x" else "0x") ++ String.ofList (hexDigits 1 n.natAbs)

def hexValue? (c : Char) : Option Nat :=
  if '0' ≤ c ∧ c ≤ '9' then some (c.toNat - '0'.toNat)
  else if 'a' ≤ c ∧ c ≤ 'f' then some (c.toNat - 'a'.toNat + 10)
  else if 'A' ≤ c ∧ c ≤ 'F' then some (c.toNat - 'A'.toNat + 10)
  else none

def ofHexDigits? (cs : List Char) : Option Nat :=
  cs.foldlM (fun n c => (hexValue? c).map (16 * n + ·)) 0

def hexNatural? : List Char → Option Nat
  | [] => none
  | '0' :: x :: cs =>
    if x ≠ 'x' ∧ x ≠ 'X' then ofHexDigits? (x :: cs)
    else if cs = [] then none
    else ofHexDigits? cs
  | cs => ofHexDigits? cs

def ofHexText? (s : String) : Option Int :=
  match s.toList with
  | '-' :: cs => (hexNatural? cs).map fun n => -(n : Int)
  | '+' :: cs => (hexNatural? cs).map Int.ofNat
  | cs => (hexNatural? cs).map Int.ofNat

end Radix.Text
