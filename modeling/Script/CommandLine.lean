import Script.Repl

namespace Script

inductive Command where
  | run (path : String)
  | repl
  | tokens (path : String)
  deriving DecidableEq, Repr

inductive Request where
  | help
  | version
  | mistake
  | perform (limit : Nat) (command : Command)
  deriving DecidableEq, Repr

inductive Argument where
  /-- Two dashes: what follows are plain words whatever their shape. -/
  | escape
  | long (name : String) (value? : Option String)
  | short (flags : List Char)
  | word (text : String)
  deriving DecidableEq, Repr

namespace Argument

def ofString (text : String) : Argument :=
  match text.toList with
  | ['-', '-'] => escape
  | '-' :: '-' :: cs =>
    let name := String.ofList (cs.takeWhile (· ≠ '='))
    match cs.dropWhile (· ≠ '=') with
    | _ :: value => long name (some (String.ofList value))
    | [] => long name none
  | '-' :: c :: cs => short (c :: cs)
  | _ => word text

end Argument

namespace CommandLine

/-- Reads a number of 64 bits, with a plus sign if wanted. -/
def limit? (text : String) : Option Nat :=
  let digits := match text.toList with
    | '+' :: cs => cs
    | cs => cs
  if digits ≠ [] ∧ digits.all Char.isDigit then
    let n := Number.digitsValue digits
    if n < UInt64.size then some n else none
  else none

/-- The settings found so far. The limit may be given once on each side of the command. -/
structure Settings where
  outer? : Option Nat := none
  inner? : Option Nat := none
  path? : Option String := none

/-- The limit next to the command's own arguments wins. -/
def Settings.limit (settings : Settings) : Nat :=
  (settings.inner?.or settings.outer?).getD Session.defaultLimit

inductive Behind where
  | run | repl | tokens
  deriving DecidableEq

def finish (behind : Behind) (settings : Settings) : Request :=
  match behind, settings.path? with
  | .run, some path => .perform settings.limit (.run path)
  | .tokens, some path => .perform settings.limit (.tokens path)
  | .repl, none => .perform settings.limit .repl
  | _, _ => .mistake

/-- Words that only can be paths: a command takes one, and it is not empty. -/
def words (behind : Behind) (settings : Settings) : List String → Request
  | [] => finish behind settings
  | word :: rest =>
    if behind = .repl ∨ settings.path?.isSome ∨ word = "" then .mistake
    else words behind { settings with path? := some word } rest

/-- The arguments behind the name of a command. The first that settles the matter does. -/
def inner (behind : Behind) (settings : Settings) : List String → Request
  | [] => finish behind settings
  | arg :: rest =>
    match Argument.ofString arg, rest with
    | .escape, rest => words behind settings rest
    | .long "help" none, _ => .help
    | .short ('h' :: _), _ => .help
    | .long "max-call-depth" (some value), rest =>
      match settings.inner?, limit? value with
      | none, some n => inner behind { settings with inner? := some n } rest
      | _, _ => .mistake
    | .long "max-call-depth" none, value :: rest =>
      match settings.inner?, Argument.ofString value, limit? value with
      | none, .word _, some n => inner behind { settings with inner? := some n } rest
      | _, _, _ => .mistake
    | .word word, rest =>
      if behind = .repl ∨ settings.path?.isSome ∨ word = "" then .mistake
      else inner behind { settings with path? := some word } rest
    | _, _ => .mistake

def named? (settings : Settings) : List String → Option Request
  | "run" :: rest => some (inner .run settings rest)
  | "repl" :: rest => some (inner .repl settings rest)
  | "tokens" :: rest => some (inner .tokens settings rest)
  | ["help"] => some .help
  | ["help", topic] => some (if topic ∈ ["run", "repl", "tokens", "help"] then .help else .mistake)
  | "help" :: _ => some .mistake
  | _ => none

/-- The request after a limit that cannot be used. The name of a command comes first if it is next:
help that is asked for behind it is still given. -/
def afterBadLimit (settings : Settings) (rest : List String) : Request :=
  match named? settings rest with
  | some .help => .help
  | _ => .mistake

/-- The arguments in front of the name of a command. Without a command a session is opened. -/
def outer (settings : Settings) : List String → Request
  | [] => finish .repl settings
  | arg :: rest =>
    match Argument.ofString arg, rest with
    | .escape, rest => words .repl settings rest
    | .long "help" none, _ => .help
    | .short ('h' :: _), _ => .help
    | .long "version" none, _ => .version
    | .short ('V' :: _), _ => .version
    | .long "max-call-depth" (some value), rest =>
      match settings.outer?, limit? value with
      | none, some n => outer { settings with outer? := some n } rest
      | _, _ => .mistake
    | .long "max-call-depth" none, value :: rest =>
      match Argument.ofString value, settings.outer?, limit? value with
      | .word _, none, some n => outer { settings with outer? := some n } rest
      | .word _, _, _ => afterBadLimit settings rest
      | _, _, _ => .mistake
    | .word _, _ =>
      match named? settings (arg :: rest) with
      | some request => request
      | none => .mistake
    | _, _ => .mistake

def parse (arguments : List String) : Request :=
  outer {} arguments

def version : String := "tern 0.1.0"

def usage : String :=
  "Interpreter for the tern scripting language\n\n" ++
  "Usage: tern [OPTIONS] [COMMAND]\n\n" ++
  "Commands:\n" ++
  "  run     Evaluate a source file\n" ++
  "  repl    Start an interactive session (the default)\n" ++
  "  tokens  Print the token stream of a source file\n" ++
  "  help    Print this message or the help of the given subcommand(s)\n\n" ++
  "Options:\n" ++
  "      --max-call-depth <MAX_CALL_DEPTH>  Nested function calls allowed before evaluation " ++
  "fails [default: 1000]\n" ++
  "  -h, --help                             Print help\n" ++
  "  -V, --version                          Print version"

/-- How a command ends: its exit code, what it printed, and what it reported about the source of
that name. -/
structure Outcome where
  code : UInt8
  printed : String
  reports : List Report
  name : String

def failed (name : String) (printed : String) (failure : Failure) : Outcome :=
  ⟨1, printed, Report.ofFailure failure, name⟩

def run (limit : Nat) (clock : Clock) (path : String) (content : Except AccessError ByteArray) :
    Outcome :=
  match (Session.start limit Sink.unbounded clock).evalFile path content with
  | (.ok _, session) => ⟨0, session.printed, [], path⟩
  | (.error failure, session) => failed path session.printed failure

def listTokens (path : String) (content : Except AccessError ByteArray) : Outcome :=
  match Session.load path content with
  | .error failure => failed path "" failure
  | .ok source =>
    match Source.tokenize source with
    | .error errors => failed path "" (.source (errors.map SyntaxError.ofUnrecognized))
    | .ok tokens =>
      ⟨0, String.join (tokens.map fun t => t.kind.name ++ " " ++ t.text ++ "\n"), [], path⟩

def repl (limit : Nat) (clock : Clock) (input : String) : Outcome :=
  let (reports, session) := Repl.rounds (Repl.start limit clock) (Repl.lines input)
  ⟨0, session.printed, reports, "<repl>"⟩

def execute (arguments : List String) (read : String → Except AccessError ByteArray)
    (input : String) (clock : Clock) : Outcome :=
  match parse arguments with
  | .help => ⟨0, usage ++ "\n", [], ""⟩
  | .version => ⟨0, version ++ "\n", [], ""⟩
  | .mistake => ⟨2, "", [], ""⟩
  | .perform limit (.run path) => run limit clock path (read path)
  | .perform _ (.tokens path) => listTokens path (read path)
  | .perform limit .repl => repl limit clock input

end CommandLine
end Script
