/-
The program on its real surroundings: files, environment and clock.
-/
import Nearby.Program
import Nearby.Time.Clock
import Std.Time.DateTime.Timestamp

namespace Nearby

open Time

/-- The text of a file, which has to be readable and proper UTF-8. -/
def readTextFile (path : String) : IO (Except Fault String) := do
  try
    match String.fromUTF8? (← IO.FS.readBinFile path) with
    | some text => return .ok text
    | none => return .error (.unreadable "stream did not contain valid UTF-8")
  catch error => return .error (.unreadable (toString error))

/-- The time by the clock. -/
def readClock : IO Timestamp := do
  let now ← Std.Time.Timestamp.now
  match Timestamp.ofNanoseconds now.toNanosecondsSinceUnixEpoch.val with
  | some moment => return moment
  | none => throw (IO.userError "the clock is past the end of the calendar")

/-- The surroundings of the program. -/
def surroundings : Host IO where
  fileText := readTextFile
  valueOf name := IO.getEnv name
  now := readClock

end Nearby

/-- Carries out the command line. -/
def main (args : List String) : IO UInt32 := do
  let outcome ← Nearby.Program.perform Nearby.surroundings Nearby.Style.standard args
  IO.print outcome.output
  for line in outcome.complaint do
    IO.eprintln line
  return outcome.status.toUInt32
