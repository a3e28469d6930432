namespace Radix.Text

/-- A positive real `mantissa * 2 ^ exponent`. -/
structure Dyadic where
  mantissa : Nat
  exponent : Int

/-- Digits `d₁ d₂ … dₙ` with the point in front of `d₁` and the value scaled by `10 ^ point`. -/
structure Scientific where
  digits : Nat
  point : Int

def scaled (x : Nat) (exponent : Int) (power : Int) : Nat × Nat :=
  (x * Nat.pow 2 exponent.toNat * Nat.pow 10 (-power).toNat,
    Nat.pow 10 power.toNat * Nat.pow 2 (-exponent).toNat)

/-- The `p` with `10 ^ (p - 1) ≤ x < 10 ^ p`, searched near the binary logarithm. -/
def decimalPoint (x : Dyadic) : Int :=
  let guess := ((Nat.log2 x.mantissa : Int) + x.exponent) * 30103 / 100000
  let below (p : Int) : Bool :=
    let (n, d) := scaled x.mantissa x.exponent p
    n < d
  if below (guess - 1) then guess - 1 else if below guess then guess
  else if below (guess + 1) then guess + 1 else guess + 2

/-- The decimal of `count` digits nearest to `x` among those that round to `x`. The reals that
round to `x` reach half a unit up and half a unit down, a quarter where the binade below is
finer; the ends round to `x` when its mantissa is even. -/
def nearestOf? (x : Dyadic) (finerBelow : Bool) (point : Int) (count : Nat) : Option Nat :=
  let power := point - count
  let centre := 4 * x.mantissa
  let (n, d) := scaled centre (x.exponent - 2) power
  let (low, _) := scaled (centre - if finerBelow then 1 else 2) (x.exponent - 2) power
  let (high, _) := scaled (centre + 2) (x.exponent - 2) power
  let inside (k : Nat) : Bool :=
    if x.mantissa % 2 = 0 then low ≤ k * d && k * d ≤ high else low < k * d && k * d < high
  let floor := n / d
  match inside floor, inside (floor + 1) with
  | true, true =>
    let twice := 2 * (n % d)
    some (if twice < d || (twice == d && floor % 2 == 0) then floor else floor + 1)
  | true, false => some floor
  | false, true => some (floor + 1)
  | false, false => none

/-- The shortest decimal that reads back as `x`; seventeen digits always do. -/
def shortest (x : Dyadic) (finerBelow : Bool) : Scientific :=
  let point := decimalPoint x
  let tried := (List.range 17).findSome? fun i =>
    (nearestOf? x finerBelow point (i + 1)).map fun k => (i + 1, k)
  let (count, k) := tried.getD (17, 0)
  if k = Nat.pow 10 count then ⟨1, point + 1⟩ else ⟨k, point⟩

/-- Positional from `0.0001` up to `10 ^ 16`, with at least one digit after the point;
otherwise one digit before the point and an exponent of at least two digits. -/
def Scientific.text (s : Scientific) : String :=
  let ds := Nat.toDigits 10 s.digits
  let zeros (n : Int) : List Char := List.replicate n.toNat '0'
  let exponent := s.point - 1
  String.ofList <|
    if -4 ≤ exponent ∧ exponent < 16 then
      if s.point ≤ 0 then '0' :: '.' :: zeros (-s.point) ++ ds
      else if ds.length ≤ s.point then ds ++ zeros (s.point - ds.length) ++ ['.', '0']
      else ds.take s.point.toNat ++ '.' :: ds.drop s.point.toNat
    else
      let power := Nat.toDigits 10 exponent.natAbs
      let fraction := if ds.length ≤ 1 then [] else '.' :: ds.drop 1
      ds.take 1 ++ fraction ++ 'e' :: (if exponent < 0 then '-' else '+') ::
        List.replicate (2 - power.length) '0' ++ power

def finiteText (x : Float) : String :=
  let bits := x.toBits.toNat
  let hidden : Nat := 0x10000000000000
  let biased : Nat := bits / hidden % 0x800
  let fraction : Nat := bits % hidden
  let sign := if 0x8000000000000000 ≤ bits then "-" else ""
  if biased = 0 ∧ fraction = 0 then sign ++ "0.0"
  else if biased = 0 then sign ++ (shortest ⟨fraction, -1074⟩ false).text
  else sign ++ (shortest ⟨hidden + fraction, biased - 1075⟩ (fraction = 0 ∧ 1 < biased)).text

/-- A double in the fewest digits that read back; the other two texts are infinity's and NaN's. -/
def realText (infinity nan : String) (x : Float) : String :=
  if x.isNaN then nan
  else if x.isInf then (if x < 0 then "-" else "") ++ infinity
  else finiteText x

end Radix.Text
