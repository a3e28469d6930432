import Radix.Session
import Std.Time.Format

namespace Radix.Main

/-- The time as log lines of a format show it: Coordinated Universal Time with its offset in JSON,
local time in plain text. -/
def now (format : LineFormat) : IO String := do
  match format with
  | .json =>
    let instant ← Std.Time.Timestamp.now
    let utc := Std.Time.PlainDateTime.ofWallTime (.ofTimestamp instant .zero)
    return utc.format "uuuu-MM-dd'T'HH:mm:ss.SSSSSS'+00:00'"
  | .plain =>
    let here ← Std.Time.PlainDateTime.now
    return here.format "uuuu-MM-dd HH:mm:ss,SSS"

partial def readAll (stream : IO.FS.Stream) (read : String) : IO String := do
  let line ← stream.getLine
  if line.isEmpty then return read else readAll stream (read ++ line)

def write : Stream × String → IO Unit
  | (.output, text) => IO.print text
  | (.error, text) => IO.eprint text

/-- Runs a session and writes what it gives out. Its input is read only if it is asked for. -/
def start (arguments : List String) : IO UInt32 := do
  let options? := (CommandLine.parse arguments).toOption
  let input ← if options?.any Session.readsInput then readAll (← IO.getStdin) "" else pure ""
  let time ← now (options?.elim .plain Options.logFormat)
  match Session.perform time arguments input with
  | .error (.fault fault) =>
    IO.eprintln fault.message
    return 1
  | .error (.exit exit) =>
    if let some message := exit.message then IO.eprintln message
    return exit.code.toUInt32
  | .ok report =>
    report.written.forM write
    if let some fault := report.aborted then
      IO.eprintln fault.message
      return 1
    return report.status.toUInt32

end Radix.Main

def main (arguments : List String) : IO UInt32 := Radix.Main.start arguments
