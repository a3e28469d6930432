import Radix.Log.Line
import Radix.Number.Basic
import Radix.Expression.Operator
import Radix.Text.Integer

namespace Radix

structure Options where
  order : Notation := .between
  base : Int := defaultBase
  showLimbs : Bool := false
  demo : Bool := false
  logLevel : Level := .warning
  logFormat : LineFormat := .plain
  expressions : List String := []

/-- The end of a program before its session starts. -/
structure Exit where
  code : Nat
  message : Option String := none
  deriving DecidableEq, Repr

namespace CommandLine

inductive Refusal where
  | exit (exit : Exit)
  | fault (fault : Fault)

def misuse : Exit := { code := 2 }

inductive Flag where
  | help
  | postfixed
  | base
  | limbs
  | demo
  | logLevel
  | logFormat
  deriving DecidableEq, Repr

def spellings : List (String × Flag) :=
  [("--help", .help), ("--postfix", .postfixed), ("--base", .base), ("--limbs", .limbs),
    ("--demo", .demo), ("--log-level", .logLevel), ("--log-format", .logFormat)]

/-- What an argument is before any option takes it for a value. -/
inductive Argument where
  | plain (text : String)
  | separator
  | option (flag : Flag) (attached : Option String)
  /-- The letters behind `-h` or `-h=` in one argument. -/
  | cluster (letters : List Char)
  | unknown
  deriving DecidableEq, Repr

def splitAtEquals (cs : List Char) : List Char × Option (List Char) :=
  match cs.dropWhile (· != '=') with
  | [] => (cs, none)
  | _ :: after => (cs.takeWhile (· != '='), some after)

/-- An argument that starts with a minus sign and spells no option: a negative number and a text
with a space are plain. -/
def unspelled (text : String) : Argument :=
  if Text.isUnsignedDecimal (text.toList.drop 1) || ' ' ∈ text.toList then .plain text
  else .unknown

/-- Reads an argument of two minus signs. A long option may be cut short as long as one option
alone fits. -/
def classifyLong (text : String) : Except Exit Argument :=
  let (name, attached) := splitAtEquals text.toList
  let attached := attached.map String.ofList
  match spellings.lookup (String.ofList name) with
  | some flag => .ok (.option flag attached)
  | none =>
    match spellings.filter fun entry => name.isPrefixOf entry.1.toList with
    | [] => .ok (unspelled text)
    | [(_, flag)] => .ok (.option flag attached)
    | _ => .error misuse

def classify (text : String) : Except Exit Argument :=
  match text.toList with
  | '-' :: '-' :: _ => classifyLong text
  | ['-', 'h'] => .ok (.option .help none)
  | '-' :: 'h' :: '=' :: letters | '-' :: 'h' :: letters => .ok (.cluster letters)
  | '-' :: _ :: _ => .ok (unspelled text)
  | _ => .ok (.plain text)

/-- Reads the arguments in turn; after the first `--` all are plain. -/
def classifyAll : List String → Except Exit (List Argument)
  | [] => .ok []
  | text :: rest =>
    if text = "--" then .ok (.separator :: rest.map .plain)
    else do
      let argument ← classify text
      return argument :: (← classifyAll rest)

/-- The end that letters behind `-h` bring: each must ask for help again. -/
def clusterExit (letters : List Char) : Exit :=
  if letters ≠ [] ∧ letters.all (· = 'h') then { code := 0 } else misuse

/-- Where the one run of expressions stands. -/
inductive Phase where
  | ahead
  | inside
  | behind
  deriving DecidableEq, Repr

/-- What has been read. A base or a level that was given nothing for its value is missing. -/
structure Progress where
  options : Options := {}
  base : Option Int := some defaultBase
  logLevel : Option String := some "WARNING"
  phase : Phase := .ahead
  surplus : Bool := false

namespace Progress

def endRun (p : Progress) : Progress :=
  if p.phase = .inside then { p with phase := .behind } else p

def addPlain (p : Progress) (texts : List String) : Progress :=
  if p.phase = .behind then { p with surplus := true }
  else
    { p with
      phase := .inside
      options := { p.options with expressions := p.options.expressions ++ texts } }

def takeFlag (p : Progress) : Flag → Except Exit Progress
  | .help => .error { code := 0 }
  | .postfixed => .ok { p with options := { p.options with order := .after } }
  | .limbs => .ok { p with options := { p.options with showLimbs := true } }
  | .demo => .ok { p with options := { p.options with demo := true } }
  | .base | .logLevel | .logFormat => .error misuse

/-- Takes an option with its value. The value `--` is dropped, and nothing is left of it. -/
def takeValue (p : Progress) (flag : Flag) (value : String) : Except Exit Progress :=
  let given := if value = "--" then none else some value
  match flag, given with
  | .base, none => .ok { p with base := none }
  | .base, some value =>
    match Text.integer? value with
    | some n => .ok { p with base := some n }
    | none => .error misuse
  | .logLevel, level => .ok { p with logLevel := level }
  | .logFormat, none => .ok { p with options := { p.options with logFormat := .plain } }
  | .logFormat, some value =>
    if value = "json" ∨ value = "text" then
      .ok { p with options := { p.options with logFormat := .ofName value } }
    else .error misuse
  | .help, _ | .postfixed, _ | .limbs, _ | .demo, _ => .error misuse

end Progress

def takesValue : Flag → Bool
  | .base | .logLevel | .logFormat => true
  | .help | .postfixed | .limbs | .demo => false

def consume : Progress → List Argument → Except Exit Progress
  | p, [] => .ok p
  | p, .plain text :: rest => consume (p.addPlain [text]) rest
  | p, .separator :: rest => consume (p.addPlain []) rest
  | p, .unknown :: rest => consume { p.endRun with surplus := true } rest
  | _, .cluster letters :: _ => .error (clusterExit letters)
  | p, .option flag (some value) :: rest => do
    let p ← p.endRun.takeValue flag value
    consume p rest
  | p, .option flag none :: .plain value :: rest =>
    if takesValue flag then do
      let p ← p.endRun.takeValue flag value
      consume p rest
    else do
      let p ← p.endRun.takeFlag flag
      consume p (.plain value :: rest)
  | p, .option flag none :: rest => do
    let p ← p.endRun.takeFlag flag
    consume p rest

def baseExit (base : Int) : Exit where
  code := 2
  message := some ("bignum: error: --base must be greater than 1, got " ++ toString base)

def checkedBase : Option Int → Except Refusal Int
  | none => .error (.fault (.notOrdered .list .int))
  | some base => if base ≤ 1 then .error (.exit (baseExit base)) else .ok base

def checkedLevel : Option String → Except Refusal Level
  | none => .error (.fault (.partMissing .list "upper"))
  | some name => (Level.ofName name).mapError .fault

def settle (read : Except Exit Progress) : Except Refusal Options := do
  let p ← read.mapError .exit
  if p.surplus then .error (.exit misuse)
  else
    let base ← checkedBase p.base
    let level ← checkedLevel p.logLevel
    return { p.options with base := base, logLevel := level }

/-- The options that a command line asks for. -/
def parse (arguments : List String) : Except Refusal Options :=
  settle ((classifyAll arguments).bind (consume {}))

end CommandLine

end Radix
