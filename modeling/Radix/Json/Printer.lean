import Radix.Fault
import Radix.Text.Hex
import Radix.Text.Real

namespace Radix.Json

/-- A character inside a JSON string. Only quotes, backslashes and control characters are
escaped. -/
def escape (c : Char) : List Char :=
  if c = '\x22' then ['\\', '\x22']
  else if c = '\\' then ['\\', '\\']
  else if c = '\n' then ['\\', 'n']
  else if c = '\r' then ['\\', 'r']
  else if c = '\t' then ['\\', 't']
  else if c = '\x08' then ['\\', 'b']
  else if c = '\x0c' then ['\\', 'f']
  else if c.toNat < 0x20 then '\\' :: 'u' :: Text.hexDigits 4 c.toNat
  else [c]

def stringChars (s : String) : List Char := '\x22' :: s.toList.flatMap escape ++ ['\x22']

def separator : List Char := [',', ' ']

mutual

def chars : Value → List Char
  | .null => "null".toList
  | .bool true => "true".toList
  | .bool false => "false".toList
  | .int n => (toString n).toList
  | .real x => (Text.realText "Infinity" "NaN" x).toList
  | .text s => stringChars s
  | .list items => '[' :: itemChars items ++ [']']
  | .record members => '\x7b' :: memberChars members ++ ['\x7d']

def itemChars : List Value → List Char
  | [] => []
  | [v] => chars v
  | v :: w :: rest => chars v ++ separator ++ itemChars (w :: rest)

def memberChars : List (String × Value) → List Char
  | [] => []
  | [(name, v)] => stringChars name ++ [':', ' '] ++ chars v
  | (name, v) :: member :: rest =>
    stringChars name ++ [':', ' '] ++ chars v ++ separator ++ memberChars (member :: rest)

end

def isWritable (v : Value) : Bool := v.integers.all Text.isWritable

/-- A value on one line, with a blank after each comma and colon; none if it holds an integer that
is too long to be written. -/
def render (v : Value) : Except Fault String :=
  if isWritable v then .ok (String.ofList (chars v)) else .error .numeralTooLong

end Radix.Json
