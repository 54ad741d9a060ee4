import Script.Session

namespace Script

inductive Report where
  | line (text : String)
  | marked (error : SyntaxError)

namespace Report

def ofFailure : Failure → List Report
  | .source errors => errors.map marked
  | failure => [line failure.message]

def ofOutcome {α : Type} : Except Failure α → List Report
  | .ok _ => []
  | .error failure => ofFailure failure

def text (name : String) : Report → String
  | line text => text
  | marked error =>
    let help := match error.help? with
      | some help => "\n  help: " ++ help
      | none => ""
    name ++ ":" ++ toString error.span.start ++ ": " ++ error.message ++
      "\n  " ++ error.label ++ help

end Report
end Script
