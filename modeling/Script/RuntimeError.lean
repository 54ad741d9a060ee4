import Script.Number.Format
import Script.Sink
import Script.Value

namespace Script

inductive RuntimeError where
  | duplicateDeclaration (name : String)
  | constantAssignment (name : String)
  | unresolvedName (name : String)
  | invalidAssignmentTarget (target : Expr.Form)
  | notIndexable (type : ValueType)
  | nonNumericIndex (type : ValueType)
  | notCallable (type : ValueType)
  | invalidPropertyKey (type : ValueType)
  | indexOutOfRange (index : Float) (length : Nat)
  | recursionLimit (limit : Nat)
  | output (failure : Sink.Failure)
  deriving DecidableEq

namespace RuntimeError

def message : RuntimeError → String
  | duplicateDeclaration name =>
    "Cannot declare `" ++ name ++ "`: it is already defined in this scope"
  | constantAssignment name => "Cannot assign to constant `" ++ name ++ "`"
  | unresolvedName name => "Cannot resolve `" ++ name ++ "`: it does not exist"
  | invalidAssignmentTarget target =>
    "Invalid assignment target: cannot assign to a " ++ target.description
  | notIndexable type => "Cannot index into a value of type " ++ type.name
  | nonNumericIndex type => "Array index must be a number, found " ++ type.name
  | notCallable type => "Value of type " ++ type.name ++ " is not callable"
  | invalidPropertyKey type => "Object key must be a string or number, found " ++ type.name
  | indexOutOfRange index length =>
    "Index " ++ Number.asIndex.format index ++ " is out of range for array of length " ++
      toString length
  | recursionLimit limit => "Maximum call depth of " ++ toString limit ++ " exceeded"
  | output failure => "Failed to write output: " ++ failure.message

end RuntimeError
end Script
