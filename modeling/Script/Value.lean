import Script.Program

namespace Script

structure ScopeId where
  index : Nat
  deriving DecidableEq, Repr

structure ArrayId where
  index : Nat
  deriving DecidableEq, Repr

structure ObjectId where
  index : Nat
  deriving DecidableEq, Repr

inductive Action where
  /-- Writes its arguments on a line. -/
  | print
  /-- Reads the clock. -/
  | time
  /-- Answers a fresh array of its arguments. -/
  | gather
  /-- Answers what a name is bound to where the call stands. -/
  | lookUp (name : String)
  deriving DecidableEq, Repr

/-- A function of the host. The stamp tells apart functions made at different times. -/
structure Native where
  stamp : Nat
  name : String
  action : Action
  deriving DecidableEq, Repr

/-- A function declaration by itself, with the stamp it got when it was met. -/
structure Declaration where
  stamp : Nat
  name : String
  parameters : List String
  body : List Stmt

structure Closure where
  declaration : Declaration
  captured : ScopeId

/-- The values of the language. Arrays and objects are shared: a value only points to them. -/
inductive Value where
  | null
  | number (x : Float)
  | string (text : String)
  | boolean (b : Bool)
  | array (id : ArrayId)
  | object (id : ObjectId)
  | native (function : Native)
  | function (closure : Closure)

inductive ValueType where
  | null | number | string | boolean | array | object | native | function
  deriving DecidableEq, Repr

def ValueType.name : ValueType → String
  | null => "null"
  | number => "number"
  | string => "string"
  | boolean => "boolean"
  | array => "array"
  | object => "object"
  | native => "internal"
  | function => "function"

def Value.type : Value → ValueType
  | null => .null
  | number _ => .number
  | string _ => .string
  | boolean _ => .boolean
  | array _ => .array
  | object _ => .object
  | native _ => .native
  | function _ => .function

def Closure.same (f g : Closure) : Bool :=
  f.declaration.stamp = g.declaration.stamp && f.captured = g.captured

end Script
