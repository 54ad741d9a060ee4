import Script.Proofs.Evaluation.Equations

namespace Script

inductive Purpose where
  | array
  | call (callee : Expr)

inductive Frame where
  | left (operator : Operator) (right : Expr) (scope : ScopeId)
  | right (operator : Operator) (x : Value)
  | assign (scope : ScopeId) (name : String)
  | write (scope : ScopeId) (object property : Expr) (computed : Bool)
  | owner (scope : ScopeId) (property : Expr) (computed : Bool) (new? : Option Value)
  | key (owner : Value) (new? : Option Value)
  | operand (scope : ScopeId) (purpose : Purpose) (done : List Value) (rest : List Expr)
  | entry (scope : ScopeId) (done : List (String × Value)) (key : String) (rest : List Property)
  | callee (scope : ScopeId) (arguments : List Value)
  | declare (scope : ScopeId) (name : String) (constant : Bool)
  | stmts (scope : ScopeId) (rest : List Stmt)
  /-- The body of a function, while it is evaluated. -/
  | body

inductive Control where
  | expr (scope : ScopeId) (e : Expr)
  | operands (scope : ScopeId) (purpose : Purpose) (done : List Value) (rest : List Expr)
  | entries (scope : ScopeId) (done : List (String × Value)) (rest : List Property)
  /-- Looks for a name, from a scope outwards, to read it or to give it a new value. -/
  | find (scope : ScopeId) (name : String) (new? : Option Value)
  | call (scope : ScopeId) (callee : Value) (arguments : List Value)
  /-- Declares parameters in the new scope of a call, before the body. -/
  | enter (scope : ScopeId) (names : List String) (arguments : List Value) (body : List Stmt)
  | stmt (scope : ScopeId) (s : Stmt)
  | stmts (scope : ScopeId) (last : Value) (rest : List Stmt)
  | value (v : Value)
  | error (e : RuntimeError)

def Control.ofKey (scope : ScopeId) : Expr → Bool → Control
  | .name name, false => .value (.string name)
  | property, _ => .expr scope property

/-- An evaluation in small steps, with all that waits for its values kept in frames. -/
structure Machine where
  control : Control
  frames : List Frame
  state : State

namespace Machine

def settle {α : Type} (next : α → Control) (frames : List Frame) :
    EStateM.Result RuntimeError State α → Machine
  | .ok a s => ⟨next a, frames, s⟩
  | .error e s => ⟨.error e, frames, s⟩

def found (name : String) (new? : Option Value) (frames : List Frame) (s : State) :
    Option (ScopeId × Value) → Machine
  | none => ⟨.error (.unresolvedName name), frames, s⟩
  | some (holder, value) =>
    match new? with
    | none => ⟨.value value, frames, s⟩
    | some v =>
      if name ∈ (s.heap.scope holder).constants then ⟨.error (.constantAssignment name), frames, s⟩
      else ⟨.value v, frames, { s with heap := s.heap.bind holder name v false }⟩

def resume (frames : List Frame) (s : State) : Frame → Value → Machine
  | .left operator right scope, x => ⟨.expr scope right, .right operator x :: frames, s⟩
  | .right operator x, y => ⟨.value (operator.apply x y), frames, s⟩
  | .assign scope name, v => ⟨.find scope name (some v), frames, s⟩
  | .write scope object property computed, v =>
    ⟨.expr scope object, .owner scope property computed (some v) :: frames, s⟩
  | .owner scope property computed new?, owner =>
    if owner.isContainer then ⟨.ofKey scope property computed, .key owner new? :: frames, s⟩
    else ⟨.error (.notIndexable owner.type), frames, s⟩
  | .key owner new?, k =>
    settle .value frames ((do
      let place ← Eval.slot owner k
      place.access new?) s)
  | .operand scope purpose done rest, v => ⟨.operands scope purpose (done ++ [v]) rest, frames, s⟩
  | .entry scope done key rest, v => ⟨.entries scope (done ++ [(key, v)]) rest, frames, s⟩
  | .callee scope arguments, f => ⟨.call scope f arguments, frames, s⟩
  | .declare scope name constant, v =>
    settle .value frames (Eval.declare scope name v constant s)
  | .stmts scope rest, v => ⟨.stmts scope v rest, frames, s⟩
  | .body, v => ⟨.value v, frames, { s with depth := s.depth - 1 }⟩

/-- One error passes all frames. The counter of calls goes down where a body is left. -/
def unwind (frames : List Frame) (s : State) : Frame → RuntimeError → Machine
  | .body, e => ⟨.error e, frames, { s with depth := s.depth - 1 }⟩
  | _, e => ⟨.error e, frames, s⟩

def stepExpr (frames : List Frame) (s : State) (scope : ScopeId) : Expr → Machine
  | .number x => ⟨.value (.number x), frames, s⟩
  | .string text => ⟨.value (.string text), frames, s⟩
  | .name name => ⟨.find scope name none, frames, s⟩
  | .binary operator left right => ⟨.expr scope left, .left operator right scope :: frames, s⟩
  | .assign (.name name) value => ⟨.expr scope value, .assign scope name :: frames, s⟩
  | .assign (.member object property computed) value =>
    ⟨.expr scope value, .write scope object property computed :: frames, s⟩
  | .assign target _ => ⟨.error (.invalidAssignmentTarget target.form), frames, s⟩
  | .object ps => ⟨.entries scope [] ps, frames, s⟩
  | .array es => ⟨.operands scope .array [] es, frames, s⟩
  | .member object property computed =>
    ⟨.expr scope object, .owner scope property computed none :: frames, s⟩
  | .call callee arguments => ⟨.operands scope (.call callee) [] arguments, frames, s⟩

def stepStmt (frames : List Frame) (s : State) (scope : ScopeId) : Stmt → Machine
  | .declare constant name none => settle .value frames (Eval.declare scope name .null constant s)
  | .declare constant name (some e) => ⟨.expr scope e, .declare scope name constant :: frames, s⟩
  | .function name parameters body =>
    settle .value frames ((do
      let stamp ← Eval.newStamp
      Eval.declare scope name (.function ⟨⟨stamp, name, parameters, body⟩, scope⟩) true) s)
  | .expr e => ⟨.expr scope e, frames, s⟩

def stepCall (limit : Nat) (frames : List Frame) (s : State) (scope : ScopeId)
    (arguments : List Value) : Value → Machine
  | .native function =>
    settle .value frames (Eval.callNative function arguments scope s)
  | .function closure =>
    if limit ≤ s.depth then ⟨.error (.recursionLimit limit), frames, s⟩
    else
      settle (fun child => .enter child closure.declaration.parameters arguments
        closure.declaration.body) frames (Eval.newChild closure.captured s)
  | other => ⟨.error (.notCallable other.type), frames, s⟩

/-- One step. A machine with nothing left to do stays as it is. -/
def step (limit : Nat) : Machine → Machine
  | ⟨.expr scope e, frames, s⟩ => stepExpr frames s scope e
  | ⟨.operands scope purpose done (e :: es), frames, s⟩ =>
    ⟨.expr scope e, .operand scope purpose done es :: frames, s⟩
  | ⟨.operands _ .array done [], frames, s⟩ => settle .value frames (Eval.newArray done s)
  | ⟨.operands scope (.call callee) done [], frames, s⟩ =>
    ⟨.expr scope callee, .callee scope done :: frames, s⟩
  | ⟨.entries scope done (.copied key :: ps), frames, s⟩ =>
    ⟨.find scope key none, .entry scope done key ps :: frames, s⟩
  | ⟨.entries scope done (.given key e :: ps), frames, s⟩ =>
    ⟨.expr scope e, .entry scope done key ps :: frames, s⟩
  | ⟨.entries _ done [], frames, s⟩ => settle .value frames (Eval.newObject done s)
  | ⟨.find scope name new?, frames, s⟩ =>
    match (s.heap.scope scope).bindings.get? name, s.heap.parent? scope with
    | some binding, _ => found name new? frames s (some (scope, binding))
    | none, some parent => ⟨.find parent name new?, frames, s⟩
    | none, none => found name new? frames s none
  | ⟨.call scope callee arguments, frames, s⟩ => stepCall limit frames s scope arguments callee
  | ⟨.enter scope (name :: names) arguments body, frames, s⟩ =>
    settle (fun _ => .enter scope names arguments.tail body) frames
      (Eval.declare scope name (arguments.head?.getD .null) false s)
  | ⟨.enter scope [] _ body, frames, s⟩ =>
    ⟨.stmts scope .null body, .body :: frames, { s with depth := s.depth + 1 }⟩
  | ⟨.stmt scope st, frames, s⟩ => stepStmt frames s scope st
  | ⟨.stmts scope _ (st :: rest), frames, s⟩ => ⟨.stmt scope st, .stmts scope rest :: frames, s⟩
  | ⟨.stmts _ last [], frames, s⟩ => ⟨.value last, frames, s⟩
  | ⟨.value v, frame :: frames, s⟩ => resume frames s frame v
  | ⟨.error e, frame :: frames, s⟩ => unwind frames s frame e
  | ⟨.value v, [], s⟩ => ⟨.value v, [], s⟩
  | ⟨.error e, [], s⟩ => ⟨.error e, [], s⟩

def run (limit : Nat) : Nat → Machine → Machine
  | 0, m => m
  | n + 1, m => run limit n (step limit m)

def outcome? : Machine → Option (EStateM.Result RuntimeError State Value)
  | ⟨.value v, [], s⟩ => some (.ok v s)
  | ⟨.error e, [], s⟩ => some (.error e s)
  | _ => none

end Machine
end Script
