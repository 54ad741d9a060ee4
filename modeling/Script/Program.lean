import Script.Operator

namespace Script

mutual

inductive Expr where
  | number (value : Float)
  | string (text : String)
  | name (id : String)
  | binary (operator : Operator) (left right : Expr)
  | assign (target value : Expr)
  | object (properties : List Property)
  | array (elements : List Expr)
  /-- A link of a path: `object.property`, or `object[property]` when computed. -/
  | member (object property : Expr) (computed : Bool)
  | call (callee : Expr) (arguments : List Expr)

/-- A property of an object literal. Without a value it copies the variable of its name. -/
inductive Property where
  | copied (key : String)
  | given (key : String) (value : Expr)

end

inductive Stmt where
  | declare (constant : Bool) (name : String) (value? : Option Expr)
  | function (name : String) (parameters : List String) (body : List Stmt)
  | expr (expr : Expr)

abbrev Program := List Stmt

inductive Expr.Form where
  | number | string | name | binary | assign | object | array | member | call
  deriving DecidableEq, Repr

namespace Expr

def form : Expr → Form
  | number _ => .number
  | string _ => .string
  | name _ => .name
  | binary _ _ _ => .binary
  | assign _ _ => .assign
  | object _ => .object
  | array _ => .array
  | member _ _ _ => .member
  | call _ _ => .call

def Form.description : Form → String
  | number => "numeric literal"
  | string => "string literal"
  | name => "identifier"
  | binary => "binary expression"
  | assign => "assignment"
  | object => "object literal"
  | array => "array literal"
  | member => "member expression"
  | call => "call expression"

end Expr
end Script
