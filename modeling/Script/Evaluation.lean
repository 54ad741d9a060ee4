import Script.Member
import Script.Operator.Apply

namespace Script.Eval

def callNative (function : Native) (arguments : List Value) (scope : ScopeId) : Eval Value :=
  match function.action with
  | .print => do
    let line ← readHeap fun h => " ".intercalate (arguments.map h.display)
    printLine line
    return .null
  | .time => return .number (Float.ofNat (← readClock))
  | .gather => newArray arguments
  | .lookUp name => lookup scope name

abbrev Caller := Closure → List Value → Eval Value

/-- A native function sees the scope of the call, a declared one does not. -/
def callValue (call : Caller) (callee : Value) (arguments : List Value) (scope : ScopeId) :
    Eval Value :=
  match callee with
  | .native function => callNative function arguments scope
  | .function closure => call closure arguments
  | other => throw (.notCallable other.type)

mutual

/-- Evaluates an expression in a scope. The recursion is over the expression alone: what happens
inside a called function is up to `call`. -/
def expr (call : Caller) (scope : ScopeId) : Expr → Eval Value
  | .number x => return .number x
  | .string text => return .string text
  | .name name => lookup scope name
  | .binary operator left right => do
    let x ← expr call scope left
    let y ← expr call scope right
    return operator.apply x y
  | .assign (.name name) value => do
    let v ← expr call scope value
    assign scope name v
  | .assign (.member object property computed) value => do
    let v ← expr call scope value
    member (expr call scope object) (memberKey property computed (expr call scope property))
      (some v) none
  | .assign target _ => throw (.invalidAssignmentTarget target.form)
  | .object ps => do
    let entries ← properties call scope ps
    newObject entries
  | .array es => do
    let items ← exprs call scope es
    newArray items
  | .member object property computed =>
    member (expr call scope object) (memberKey property computed (expr call scope property))
      none none
  | .call callee arguments => do
    let values ← exprs call scope arguments
    let f ← expr call scope callee
    callValue call f values scope

def exprs (call : Caller) (scope : ScopeId) : List Expr → Eval (List Value)
  | [] => return []
  | e :: es => do
    let v ← expr call scope e
    let vs ← exprs call scope es
    return v :: vs

def properties (call : Caller) (scope : ScopeId) : List Property → Eval (List (String × Value))
  | [] => return []
  | p :: ps => do
    let entry ← property call scope p
    let entries ← properties call scope ps
    return entry :: entries

def property (call : Caller) (scope : ScopeId) : Property → Eval (String × Value)
  | .copied key => return (key, ← lookup scope key)
  | .given key value => return (key, ← expr call scope value)

end

def accessMember (call : Caller) (scope : ScopeId) (object property : Expr) (computed : Bool)
    (new? : Option Value) (key? : Option String) : Eval Value :=
  member (expr call scope object) (memberKey property computed (expr call scope property)) new? key?

def stmt (call : Caller) (scope : ScopeId) : Stmt → Eval Value
  | .declare constant name none => declare scope name .null constant
  | .declare constant name (some value) => do
    let v ← expr call scope value
    declare scope name v constant
  | .function name parameters body => do
    let stamp ← newStamp
    declare scope name (.function ⟨⟨stamp, name, parameters, body⟩, scope⟩) true
  | .expr e => expr call scope e

/-- Evaluates statements in turn. The value of the last one is the value of all. -/
def body (call : Caller) (scope : ScopeId) (stmts : List Stmt) : Eval Value :=
  stmts.foldlM (fun _ s => stmt call scope s) .null

/-- Declares the parameters of a function. One without an argument is `null`. -/
def parameters (scope : ScopeId) : List String → List Value → Eval Unit
  | [], _ => return ()
  | p :: ps, arguments => do
    let _ ← declare scope p (arguments.head?.getD .null) false
    parameters scope ps arguments.tail

/-- Calls a function in a new scope inside the one it captured. The counter of calls decides whether
the limit is reached. Each call leaves less room for the calls inside it, and any room above the
limit is enough. -/
def function (limit : Nat) : Nat → Caller
  | 0, _, _ => throw (.recursionLimit limit)
  | room + 1, closure, arguments => do
    if limit ≤ (← get).depth then throw (.recursionLimit limit)
    let scope ← newChild closure.captured
    parameters scope closure.declaration.parameters arguments
    counted (body (function limit room) scope closure.declaration.body)

def caller (limit : Nat) : Caller :=
  function limit (limit + 1)

def program (limit : Nat) (scope : ScopeId) (p : Program) : Eval Value :=
  body (caller limit) scope p

end Script.Eval
