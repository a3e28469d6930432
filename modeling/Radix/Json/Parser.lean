import Radix.Text.Digit
import Radix.Text.Hex
import Radix.Value

namespace Radix.Json

def isSpace (c : Char) : Bool := c = ' ' ∨ c = '\t' ∨ c = '\n' ∨ c = '\r'

def skipSpace (cs : List Char) : List Char := cs.dropWhile isSpace

def unescape? (c : Char) : Option Char :=
  if c = '\x22' ∨ c = '\\' ∨ c = '/' then some c
  else if c = 'n' then some '\n'
  else if c = 'r' then some '\r'
  else if c = 't' then some '\t'
  else if c = 'b' then some '\x08'
  else if c = 'f' then some '\x0c'
  else none

def ofCode? (n : Nat) : Option Char :=
  if n < 0xd800 ∨ 0xdfff < n then some (Char.ofNat n) else none

def ofSurrogates? (high low : Nat) : Option Char :=
  if 0xd800 ≤ high ∧ high < 0xdc00 ∧ 0xdc00 ≤ low ∧ low < 0xe000 then
    some (Char.ofNat (0x10000 + (high - 0xd800) * 0x400 + (low - 0xdc00)))
  else none

/-- A string's characters after its opening quote, and what follows its closing quote. -/
def stringBody? : List Char → Option (List Char × List Char)
  | [] => none
  | c :: rest =>
    if c = '\x22' then some ([], rest)
    else if c = '\\' then
      match rest with
      | [] => none
      | letter :: rest =>
        if letter = 'u' then
          match rest with
          | h₁ :: h₂ :: h₃ :: h₄ :: rest => do
            let code ← Text.ofHexDigits? [h₁, h₂, h₃, h₄]
            match ofCode? code with
            | some char =>
              let (body, after) ← stringBody? rest
              return (char :: body, after)
            | none =>
              match rest with
              | '\\' :: 'u' :: l₁ :: l₂ :: l₃ :: l₄ :: rest => do
                let char ← ofSurrogates? code (← Text.ofHexDigits? [l₁, l₂, l₃, l₄])
                let (body, after) ← stringBody? rest
                return (char :: body, after)
              | _ => none
          | _ => none
        else do
          let char ← unescape? letter
          let (body, after) ← stringBody? rest
          return (char :: body, after)
    else if c.toNat < 0x20 then none
    else do
      let (body, after) ← stringBody? rest
      return (c :: body, after)

def string? : List Char → Option (String × List Char)
  | '\x22' :: rest => (stringBody? rest).map fun (body, after) => (String.ofList body, after)
  | _ => none

def ofDigits (digits : List Char) : Nat :=
  digits.foldl (fun n c => 10 * n + Text.digitValue c) 0

def naturalDigits? (cs : List Char) : Option (List Char × List Char) :=
  let digits := cs.takeWhile Text.isDigit
  if digits = [] ∨ (digits.head? = some '0' ∧ digits ≠ ['0']) then none
  else some (digits, cs.dropWhile Text.isDigit)

def fraction? : List Char → Option (Option (List Char) × List Char)
  | '.' :: rest =>
    let digits := rest.takeWhile Text.isDigit
    if digits = [] then none else some (some digits, rest.dropWhile Text.isDigit)
  | rest => some (none, rest)

def power? : List Char → Option (Option Int × List Char)
  | e :: rest =>
    if e = 'e' ∨ e = 'E' then
      let (negative, rest) : Bool × List Char :=
        match rest with
        | '-' :: rest => (true, rest)
        | '+' :: rest => (false, rest)
        | rest => (false, rest)
      let digits := rest.takeWhile Text.isDigit
      if digits = [] then none
      else
        let n : Int := ofDigits digits
        some (some (if negative then -n else n), rest.dropWhile Text.isDigit)
    else some (none, e :: rest)
  | [] => some (none, [])

/-- The double nearest to `digits * 10 ^ power`. Beyond a thousand places nothing but infinity
and zero is left. -/
def nearest (negative : Bool) (digits : List Char) (power : Int) : Float :=
  let places : Int := digits.length
  let power := max (-1000 - places) (min 1000 power)
  let x := Float.ofScientific (ofDigits digits) (power < 0) power.natAbs
  if negative then -x else x

def number? (cs : List Char) : Option (Value × List Char) := do
  let (negative, unsigned) : Bool × List Char :=
    match cs with
    | '-' :: rest => (true, rest)
    | rest => (false, rest)
  let (whole, rest) ← naturalDigits? unsigned
  let (fraction, rest) ← fraction? rest
  let (power, rest) ← power? rest
  match fraction, power with
  | none, none =>
    let n : Int := ofDigits whole
    return (.int (if negative then -n else n), rest)
  | _, _ =>
    let digits := fraction.getD []
    return (.real (nearest negative (whole ++ digits) (power.getD 0 - digits.length)), rest)

/-- The value of a word that has begun, if the text goes on with its other letters. -/
def word? (letters : String) (v : Value) (cs : List Char) : Option (Value × List Char) :=
  if letters.toList.isPrefixOf cs then some (v, cs.drop letters.length) else none

mutual

/-- A value at the start of a text, and what follows it, in a bounded number of steps. -/
def value? : Nat → List Char → Option (Value × List Char)
  | 0, _ | _, [] => none
  | fuel + 1, c :: rest =>
    if c = '\x22' then (stringBody? rest).map fun (body, after) => (.text (String.ofList body), after)
    else if c = '[' then (items? fuel (skipSpace rest)).map fun (items, after) => (.list items, after)
    else if c = '\x7b' then
      (members? fuel (skipSpace rest)).map fun (members, after) => (.record members, after)
    else if c = 'n' then word? "ull" .null rest
    else if c = 't' then word? "rue" (.bool true) rest
    else if c = 'f' then word? "alse" (.bool false) rest
    else if c = 'N' then word? "aN" (.real (0 / 0)) rest
    else if c = 'I' then word? "nfinity" (.real (1 / 0)) rest
    else if c = '-' ∧ rest.head? = some 'I' then word? "Infinity" (.real (-1 / 0)) rest
    else number? (c :: rest)

def items? : Nat → List Char → Option (List Value × List Char)
  | 0, _ | _, [] => none
  | fuel + 1, c :: rest =>
    if c = ']' then some ([], rest)
    else do
      let (v, rest) ← value? fuel (c :: rest)
      let (vs, after) ← moreItems? fuel (skipSpace rest)
      return (v :: vs, after)

def moreItems? : Nat → List Char → Option (List Value × List Char)
  | 0, _ | _, [] => none
  | fuel + 1, c :: rest =>
    if c = ']' then some ([], rest)
    else if c = ',' then do
      let (v, rest) ← value? fuel (skipSpace rest)
      let (vs, after) ← moreItems? fuel (skipSpace rest)
      return (v :: vs, after)
    else none

def member? : Nat → List Char → Option ((String × Value) × List Char)
  | 0, _ => none
  | fuel + 1, cs => do
    let (name, rest) ← string? cs
    match skipSpace rest with
    | [] => none
    | c :: rest =>
      if c = ':' then do
        let (v, rest) ← value? fuel (skipSpace rest)
        return ((name, v), rest)
      else none

def members? : Nat → List Char → Option (List (String × Value) × List Char)
  | 0, _ | _, [] => none
  | fuel + 1, c :: rest =>
    if c = '\x7d' then some ([], rest)
    else do
      let (m, rest) ← member? fuel (c :: rest)
      let (ms, after) ← moreMembers? fuel (skipSpace rest)
      return (m :: ms, after)

def moreMembers? : Nat → List Char → Option (List (String × Value) × List Char)
  | 0, _ | _, [] => none
  | fuel + 1, c :: rest =>
    if c = '\x7d' then some ([], rest)
    else if c = ',' then do
      let (m, rest) ← member? fuel (skipSpace rest)
      let (ms, after) ← moreMembers? fuel (skipSpace rest)
      return (m :: ms, after)
    else none

end

/-- The value that a text writes. A character brings at most two steps with it. -/
def parse? (text : String) : Option Value :=
  let cs := skipSpace text.toList
  match value? (2 * cs.length + 2) cs with
  | some (v, rest) => if (skipSpace rest).isEmpty then some v else none
  | none => none

end Radix.Json
