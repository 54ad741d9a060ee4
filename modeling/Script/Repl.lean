import Script.Report
import Script.Text.Erasure
import Script.Text.WhiteSpace

namespace Script.Repl

def banner : String :=
  "tern v0.1.0 (empty line or `exit` to quit)"

def showLine (session : Session) (line : String) : Session :=
  { session with state.sink := (session.state.sink.writeLine line).2 }

def start (limit : Nat) (clock : Clock) : Session :=
  showLine (Session.start limit Sink.unbounded clock) banner

/-- One round: the line is evaluated and its value shown, or its failure reported. A line that is
blank or asks for the end ends the session. -/
def round? (session : Session) (line : String) : Option (List Report × Session) :=
  if Text.isBlankText line || requestsExit line then none
  else
    match session.eval line with
    | (.ok value, session) => some ([], showLine session (session.display value))
    | (.error failure, session) => some (Report.ofFailure failure, session)

def rounds (session : Session) : List String → List Report × Session
  | [] => ([], session)
  | line :: lines =>
    match round? session line with
    | none => ([], session)
    | some (reports, session) =>
      let (more, session) := rounds session lines
      (reports ++ more, session)

/-- A line without its end, which may be a line feed with a carriage return before it. -/
def trimEnd (line : String) : String :=
  match line.toList.reverse with
  | '\n' :: '\r' :: cs => String.ofList cs.reverse
  | '\n' :: cs => String.ofList cs.reverse
  | _ => line

def readLine (line : String) : String :=
  Text.erased (trimEnd line)

/-- The lines of a text. What stands behind the last line feed is a line if it is not empty. -/
def lines (text : String) : List String :=
  let parts := text.splitOn "\n"
  let ended := parts.dropLast.map fun part => readLine (part ++ "\n")
  match parts.getLast? with
  | none | some "" => ended
  | some last => ended ++ [readLine last]

end Script.Repl
