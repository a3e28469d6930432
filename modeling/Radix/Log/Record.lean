import Radix.Fault

namespace Radix

/-- How grave a log record is; a higher number is graver. -/
structure Level where
  number : Int
  deriving DecidableEq, Repr

namespace Level

def notSet : Level := ⟨0⟩
def debug : Level := ⟨10⟩
def info : Level := ⟨20⟩
def warning : Level := ⟨30⟩
def error : Level := ⟨40⟩
def critical : Level := ⟨50⟩

def name (level : Level) : String :=
  if level = critical then "CRITICAL"
  else if level = error then "ERROR"
  else if level = warning then "WARNING"
  else if level = info then "INFO"
  else if level = debug then "DEBUG"
  else if level = notSet then "NOTSET"
  else "Level " ++ toString level.number

/-- Upper case of the letters that level names are made of: ASCII letters, the dotless i, the long
s and two ligatures of s and t. -/
def upper (c : Char) : List Char :=
  if c = 'ı' then ['I'] else if c = 'ſ' then ['S']
  else if c = 'ﬅ' ∨ c = 'ﬆ' then ['S', 'T'] else [c.toUpper]

def layout : String := "%(levelname)s:%(name)s:%(message)s"

/-- The layouts by their marks, which one name means in place of a level. -/
def layouts : String :=
  "\x7b'%': (<class 'logging.PercentStyle'>, '" ++ layout ++ "'), " ++
  "'\x7b': (<class 'logging.StrFormatStyle'>, " ++
    "'\x7blevelname\x7d:\x7bname\x7d:\x7bmessage\x7d'), " ++
  "'$': (<class 'logging.StringTemplateStyle'>, " ++
    "'$\x7blevelname\x7d:$\x7bname\x7d:$\x7bmessage\x7d')\x7d"

/-- The level that a name of any case means; any other name means `info`. -/
def ofName (name : String) : Except Fault Level :=
  match String.ofList (name.toList.flatMap upper) with
  | "DEBUG" => .ok debug
  | "WARN" | "WARNING" => .ok warning
  | "ERROR" => .ok error
  | "CRITICAL" | "FATAL" => .ok critical
  | "NOTSET" => .ok notSet
  | "BASIC_FORMAT" => .error (.levelUnknown layout)
  | "_STYLES" => .error (.levelInvalid layouts)
  | _ => .ok info

end Level

structure Record where
  level : Level
  channel : String
  message : String
  attributes : List (String × Value)
  /-- The integers that the message spells and that may be of any length. -/
  numerals : List Int := []

namespace Channel

def number : String := "bignum.core_math.num"
def arithmetic : String := "bignum.core_math.arithmetic"
def infixed : String := "bignum.expression.infix"
def postfixed : String := "bignum.expression.postfix"
def session : String := "bignum.main"

end Channel

end Radix
