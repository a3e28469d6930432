import Radix.Text.Quoted
import Radix.Text.Real
import Radix.Value

namespace Radix.Value

mutual

def literal : Value → String
  | .null => "None"
  | .bool true => "True"
  | .bool false => "False"
  | .int n => toString n
  | .real x => Text.realText "inf" "nan" x
  | .text s => Text.quoted s
  | .list items => Text.bracketed (literals items)
  | .record members => "\x7b" ++ ", ".intercalate (memberLiterals members) ++ "\x7d"

def literals : List Value → List String
  | [] => []
  | v :: vs => v.literal :: literals vs

def memberLiterals : List (String × Value) → List String
  | [] => []
  | (name, v) :: rest => (Text.quoted name ++ ": " ++ v.literal) :: memberLiterals rest

end

end Radix.Value
