import Script.Number.Exact
import Script.Value

namespace Script.Operator

def applyNumbers (x y : Float) : Operator → Value
  | add => .number (x + y)
  | subtract => .number (x - y)
  | multiply => .number (x * y)
  | divide => .number (x / y)
  | remainder => .number (Number.remainder x y)
  | greater => .boolean (x > y)
  | greaterEqual => .boolean (x ≥ y)
  | less => .boolean (x < y)
  | lessEqual => .boolean (x ≤ y)
  | equal => .boolean (x == y)
  | notEqual => .boolean (x != y)

/-- Only numbers can be joined. With any other operand the result is `null`. -/
def apply (operator : Operator) : Value → Value → Value
  | .number x, .number y => operator.applyNumbers x y
  | _, _ => .null

end Script.Operator
