namespace Radix

/-- A loosely typed value: what a caller hands in, and what a log record carries. -/
inductive Value where
  | null
  | bool (b : Bool)
  | int (n : Int)
  | real (x : Float)
  | text (s : String)
  | list (items : List Value)
  | record (members : List (String × Value))
  deriving Inhabited

/-- What an operand is, as far as messages tell operands apart. -/
inductive Kind where
  | null
  | bool
  | int
  | real
  | text
  | list
  | record
  | number
  deriving DecidableEq, Repr

def Kind.name : Kind → String
  | .null => "NoneType"
  | .bool => "bool"
  | .int => "int"
  | .real => "float"
  | .text => "str"
  | .list => "list"
  | .record => "dict"
  | .number => "BigNumber"

namespace Value

def kind : Value → Kind
  | .null => .null
  | .bool _ => .bool
  | .int _ => .int
  | .real _ => .real
  | .text _ => .text
  | .list _ => .list
  | .record _ => .record

def isNull : Value → Bool
  | .null => true
  | _ => false

def ofNat (n : Nat) : Value := .int n

def member? (v : Value) (name : String) : Option Value :=
  match v with
  | .record members => members.lookup name
  | _ => none

mutual

def integers : Value → List Int
  | .int n => [n]
  | .list items => itemIntegers items
  | .record members => memberIntegers members
  | .null | .bool _ | .real _ | .text _ => []

def itemIntegers : List Value → List Int
  | [] => []
  | v :: vs => v.integers ++ itemIntegers vs

def memberIntegers : List (String × Value) → List Int
  | [] => []
  | (_, v) :: rest => v.integers ++ memberIntegers rest

end

end Value

end Radix
