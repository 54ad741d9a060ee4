import Script.CommandLine
import Std.Time

open Script

namespace Script.Main

def clock : IO Nat := do
  return (← Std.Time.Timestamp.now).toMillisecondsSinceUnixEpoch.toInt.toNat

def read (path : String) : IO (Except AccessError ByteArray) := do
  try
    return .ok (← IO.FS.readBinFile path)
  catch
    | .noFileOrDirectory .. => return .error .notFound
    | .inappropriateType .. => return .error .isDirectory
    | error => return .error (.other (toString error))

def report (name : String) (reports : List Report) : IO Unit := do
  for r in reports do
    IO.eprintln (r.text name)

def finish (outcome : CommandLine.Outcome) : IO UInt32 := do
  IO.print outcome.printed
  report outcome.name outcome.reports
  return outcome.code.toUInt32

partial def interact (session : Session) (shown : Nat) : IO Unit := do
  let out ← IO.getStdout
  out.putStr (session.state.sink.textFrom shown)
  out.flush
  let shown := session.state.sink.written.size
  let line ← (← IO.getStdin).getLine
  if line.isEmpty then return
  -- A line is evaluated at once, so the clock stands still meanwhile.
  let session := { session with state.clock := ← clock }
  match Repl.round? session (Repl.readLine line) with
  | none => return
  | some (reports, session) =>
    report "<repl>" reports
    interact session shown

end Script.Main

def main (arguments : List String) : IO UInt32 := do
  let now ← Script.Main.clock
  match CommandLine.parse arguments with
  | .perform limit (.run path) =>
    Script.Main.finish (CommandLine.run limit now path (← Script.Main.read path))
  | .perform _ (.tokens path) =>
    Script.Main.finish (CommandLine.listTokens path (← Script.Main.read path))
  | .perform limit .repl =>
    Script.Main.interact (Repl.start limit now) 0
    return 0
  | .mistake =>
    IO.eprintln CommandLine.usage
    return 2
  | .help | .version =>
    Script.Main.finish (CommandLine.execute arguments (fun _ => .error .notFound) "" now)
