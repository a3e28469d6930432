import Radix.CommandLine.Options
import Radix.Expression.Evaluate

namespace Radix

/-- What a session gives out, piece by piece: text for the one or the other output stream, or a
log record. -/
inductive Emission where
  | output (text : String)
  | error (text : String)
  | logged (record : Record)

/-- What a session has given out, whether a line of it failed, and the fault that cut it short,
if one did. -/
structure Transcript where
  emissions : List Emission := []
  failed : Bool := false
  aborted : Option Fault := none

namespace Transcript

def append (s t : Transcript) : Transcript :=
  if s.aborted.isSome then s
  else ⟨s.emissions ++ t.emissions, s.failed || t.failed, t.aborted⟩

instance : Append Transcript := ⟨append⟩

def output (t : Transcript) : String :=
  String.join (t.emissions.filterMap fun | .output text => some text | _ => none)

def errors (t : Transcript) : String :=
  String.join (t.emissions.filterMap fun | .error text => some text | _ => none)

def records (t : Transcript) : List Record :=
  t.emissions.filterMap fun | .logged record => some record | _ => none

def status (t : Transcript) : Nat := if t.failed then 1 else 0

end Transcript

namespace Session

def failureRecord (line : String) (fault : Fault) : Record where
  level := .info
  channel := Channel.session
  message := "Evaluation failed for " ++ Text.quoted line ++ ": " ++ fault.message
  attributes := []

def transcribe {α : Type} (c : Calc α) (shown : α → List String) : Transcript :=
  match c.outcome with
  | .ok a => ⟨c.log.map .logged ++ (shown a).map .output, false, none⟩
  | .error fault => ⟨c.log.map .logged, false, some fault⟩

def limbLine (x : Number) : Transcript :=
  transcribe ⟨x.describe, []⟩ fun text => [text ++ "\n"]

/-- Evaluates one line. A reportable fault is logged and told, and does not cut the session
short. -/
def answer (options : Options) (line : String) : Transcript :=
  let c := Expression.evaluateLine options.order (.int options.base) line
  match c.outcome with
  | .error fault =>
    if fault.isReportable then
      ⟨c.log.map .logged ++ [.logged (failureRecord line fault),
        .error ("error: " ++ line ++ ": " ++ fault.message ++ "\n")], true, none⟩
    else ⟨c.log.map .logged, false, some fault⟩
  | .ok x =>
    let result : Transcript := ⟨c.log.map .logged ++ [.output (x.text ++ "\n")], false, none⟩
    if options.showLimbs then result ++ limbLine x else result

def answerAll (options : Options) : List String → Transcript
  | [] => {}
  | line :: lines => answer options line ++ answerAll options lines

def demonstration : Calc (List String) := do
  let x := Number.ofInt defaultBase 999
  let y ← Number.ofText defaultBase "8"
  let sum ← x.add y
  let power ← x.power 8
  return [sum.text ++ "\n", power.text ++ "\n", (← sum.describe) ++ "\n"]

/-- The lines of a text, which end at newlines only. -/
def lines : List Char → List (List Char)
  | [] => [[]]
  | c :: cs => if c = '\n' then [] :: lines cs else Token.prolong c (lines cs)

/-- The lines of an input, trimmed, without the blank ones. -/
def inputLines (input : String) : List String :=
  ((lines input.toList).map fun line => String.ofList (Text.trimBy Text.isBlank line)).filter
    (· ≠ "")

def readsInput (options : Options) : Bool := !options.demo && options.expressions.isEmpty

/-- Evaluates the expressions given as arguments, or else the lines of the input. -/
def run (options : Options) (input : String) : Transcript :=
  if options.demo then transcribe demonstration id
  else answerAll options (if readsInput options then inputLines input else options.expressions)

def isShown (options : Options) (record : Record) : Bool :=
  options.logLevel.number ≤ record.level.number

/-- The lines of a log. A record that cannot be written leaves no line. -/
def logLines (options : Options) (time : String) (records : List Record) : List String :=
  (records.filter (isShown options)).filterMap fun record =>
    (record.line options.logFormat time).toOption

/-- A log as a text, each line of it ended by a newline. -/
def logText (options : Options) (time : String) (records : List Record) : String :=
  String.join ((logLines options time records).map (· ++ "\n"))

end Session

/-- The streams that a program writes to; its log goes to the stream of its errors. -/
inductive Stream where
  | output
  | error
  deriving DecidableEq, Repr

def Emission.written (options : Options) (time : String) : Emission → Stream × String
  | .output text => (.output, text)
  | .error text => (.error, text)
  | .logged record => (.error, Session.logText options time [record])

namespace Session

/-- What is left of a session: the fault that cut it short, if one did, its status, what it put out
on either stream, the lines of its log, and all that was written, in its order. -/
structure Report where
  aborted : Option Fault
  status : Nat
  output : String
  errors : String
  log : List String
  written : List (Stream × String)

def report (options : Options) (time : String) (t : Transcript) : Report where
  aborted := t.aborted
  status := t.status
  output := t.output
  errors := t.errors
  log := logLines options time t.records
  written := t.emissions.map (Emission.written options time)

/-- A program's run on its arguments and its input. -/
def perform (time : String) (arguments : List String) (input : String) :
    Except CommandLine.Refusal Report := do
  let options ← CommandLine.parse arguments
  return report options time (run options input)

end Session

end Radix
