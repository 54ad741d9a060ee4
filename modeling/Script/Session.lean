import Script.Evaluation
import Script.Files
import Script.Globals
import Script.Program.Parser

namespace Script

inductive Failure where
  | source (errors : List SyntaxError)
  | runtime (error : RuntimeError)
  | access (path : String) (error : AccessError)

def Failure.message : Failure → String
  | source errors => SyntaxError.summary errors
  | runtime error => "Runtime error: " ++ error.message
  | access path error => "Failed to access " ++ path ++ ": " ++ error.message

/-- Sources that are evaluated one after the other in one global scope. -/
structure Session where
  limit : Nat
  globals : ScopeId
  state : State

namespace Session

def defaultLimit : Nat := 1000

def start (limit : Nat) (sink : Sink) (clock : Clock) : Session :=
  let (globals, heap) := Heap.empty.newGlobals
  ⟨limit, globals, ⟨heap, 0, sink, clock⟩⟩

/-- Evaluates a source. What a failing source has changed before it failed stays changed. -/
def eval (session : Session) (source : String) : Except Failure Value × Session :=
  match Program.parse source with
  | .error errors => (.error (.source errors), session)
  | .ok program =>
    let ⟨limit, globals, state⟩ := session
    match Eval.program limit globals program state with
    | .ok value state => (.ok value, ⟨limit, globals, state⟩)
    | .error error state => (.error (.runtime error), ⟨limit, globals, state⟩)

def lookup (session : Session) (name : String) : Except RuntimeError Value :=
  session.state.heap.lookup session.globals name

def display (session : Session) (value : Value) : String :=
  session.state.heap.display value

def printed (session : Session) : String :=
  session.state.sink.text

def load (path : String) (content : Except AccessError ByteArray) : Except Failure String :=
  match content.bind decodeText with
  | .ok source => .ok source
  | .error error => .error (.access path error)

def evalFile (session : Session) (path : String) (content : Except AccessError ByteArray) :
    Except Failure Value × Session :=
  match load path content with
  | .ok source => session.eval source
  | .error failure => (.error failure, session)

end Session

/-- Does a line ask to end an interactive session? It does if the name `exit` stands anywhere in it
and it has no unknown characters. -/
def requestsExit (line : String) : Bool :=
  match Source.tokenize line with
  | .ok tokens => tokens.any fun token => token.kind = .identifier && token.text = "exit"
  | .error _ => false

end Script
