import Script.Token.Source

namespace Script

inductive NameRole where
  | variableName | functionName | parameterName | propertyName | memberName
  deriving DecidableEq, Repr

inductive SyntaxError.Cause where
  | unrecognized (c : Char)
  | reserved (kind : Kind)
  | uninitialized (name : String)
  | expected (kind found : Kind)
  | expectedName (role : NameRole) (found : Kind)
  | expectedColon (key : String)
  | badNumber (text : String)
  | unexpected (kind : Kind)
  deriving DecidableEq, Repr

structure SyntaxError where
  cause : SyntaxError.Cause
  span : Span
  deriving DecidableEq, Repr

def NameRole.message : NameRole → String
  | variableName => "Expected variable name"
  | functionName => "Expected function name"
  | parameterName => "Expected parameter name"
  | propertyName => "Expected property name in object literal"
  | memberName => "Expected property name after `.`"

namespace SyntaxError

def Cause.message : Cause → String
  | unrecognized c => Unrecognized.message ⟨c, Span.point 0⟩
  | reserved kind => kind.description ++ " is reserved but not supported"
  | uninitialized name => "Constant `" ++ name ++ "` must be initialized"
  | expected kind found => "Expected " ++ kind.description ++ ", found " ++ found.description
  | expectedName role _ => role.message
  | expectedColon key => "Expected `:` after property `" ++ key ++ "`"
  | badNumber text => "Invalid number literal `" ++ text ++ "`"
  | unexpected kind => "Unexpected " ++ kind.description

def Cause.label : Cause → String
  | unrecognized _ => "not part of the language"
  | reserved _ => "reserved keyword"
  | uninitialized _ => "missing value"
  | expected kind _ => "expected " ++ kind.description
  | expectedName _ found => "found " ++ found.description
  | unexpected _ => "expression expected here"
  | cause => cause.message

def Cause.help? : Cause → Option String
  | reserved _ => some "the language has no conditionals or loops yet"
  | uninitialized name => some ("write `const " ++ name ++ " = <value>`")
  | expectedColon _ => some "write `key: value`, or `key` alone to copy a variable"
  | _ => none

def message (error : SyntaxError) : String := error.cause.message
def label (error : SyntaxError) : String := error.cause.label
def help? (error : SyntaxError) : Option String := error.cause.help?

def ofUnrecognized (error : Unrecognized) : SyntaxError :=
  ⟨.unrecognized error.character, error.span⟩

def summary (errors : List SyntaxError) : String :=
  "\n".intercalate <| errors.map fun error =>
    "Syntax error at " ++ toString error.span.start ++ ": " ++ error.message

end SyntaxError
end Script
