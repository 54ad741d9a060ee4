namespace Script

inductive Operator where
  | add | subtract | multiply | divide | remainder
  | greater | greaterEqual | less | lessEqual | equal | notEqual
  deriving DecidableEq, Repr

namespace Operator

def all : List Operator :=
  [add, subtract, multiply, divide, remainder, greater, greaterEqual, less, lessEqual, equal,
    notEqual]

def symbol : Operator → String
  | add => "+"
  | subtract => "-"
  | multiply => "*"
  | divide => "/"
  | remainder => "%"
  | greater => ">"
  | greaterEqual => ">="
  | less => "<"
  | lessEqual => "<="
  | equal => "=="
  | notEqual => "!="

def ofSymbol? (symbol : String) : Option Operator :=
  all.find? fun operator => operator.symbol = symbol

theorem ofSymbol?_symbol (operator : Operator) : ofSymbol? operator.symbol = some operator := by
  cases operator <;> decide

end Operator
end Script
