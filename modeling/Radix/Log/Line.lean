import Radix.Json.Printer
import Radix.Log.Record

namespace Radix

inductive LineFormat where
  | json
  | plain
  deriving DecidableEq, Repr

def LineFormat.ofName (name : String) : LineFormat := if name = "json" then .json else .plain

/-- What a JSON line is made of. The name of the level may be any text. -/
structure Entry where
  time : String
  levelName : String
  channel : String
  message : String
  attributes : List (String × Value)
  exception : Option String

namespace Entry

def shownAttributes : List String := ["notation", "operator", "base", "token", "result_limbs"]

/-- An attribute that is present and not null; of two of one name the later counts. -/
def attribute? (e : Entry) (name : String) : Option Value :=
  (e.attributes.reverse.lookup name).filter (!·.isNull)

def members (e : Entry) : List (String × Value) :=
  [("timestamp", .text e.time), ("level", .text e.levelName), ("logger", .text e.channel),
    ("message", .text e.message)] ++
  shownAttributes.filterMap (fun name => (e.attribute? name).map fun v => (name, v)) ++
  (e.exception.map fun text => ("exception", Value.text text)).toList

def jsonLine (e : Entry) : Except Fault String := Json.render (.record e.members)

end Entry

namespace Record

/-- The record as a JSON line shows it, with the text of an exception if one comes with it. -/
def entry (time : String) (r : Record) (exception : Option String) : Entry :=
  ⟨time, r.level.name, r.channel, r.message, r.attributes, exception⟩

def jsonLine (time : String) (r : Record) (exception : Option String) : Except Fault String :=
  (r.entry time exception).jsonLine

def plainLine (time : String) (r : Record) : String :=
  time ++ " " ++ r.level.name ++ " " ++ r.channel ++ " - " ++ r.message

/-- The record as a line. There is none if the message spells an integer that is too long. -/
def line (format : LineFormat) (time : String) (r : Record) : Except Fault String :=
  if r.numerals.all Text.isWritable then
    match format with
    | .json => r.jsonLine time none
    | .plain => .ok (r.plainLine time)
  else .error .numeralTooLong

end Record

def exceptionText (kind text : String) : String := if text = "" then kind else kind ++ ": " ++ text

end Radix
