import Script.Number.Literal
import Script.Program
import Script.SyntaxError

namespace Script

structure Cursor where
  ahead : List Token
  stop : Token

namespace Cursor

/-- A program ends at the first end mark. A list without one ends where its last token does. -/
def ofTokens (tokens : List Token) : Cursor where
  ahead := tokens.takeWhile fun token => token.kind ≠ .endOfFile
  stop := (tokens.find? fun token => token.kind = .endOfFile).getD
    (Token.endOfFile ((tokens.getLast?.map fun token => token.span.stop).getD 0))

def current (c : Cursor) : Token :=
  c.ahead.head?.getD c.stop

/-- Steps over the current token. There is no step beyond the end. -/
def next (c : Cursor) : Cursor :=
  { c with ahead := c.ahead.tail }

end Cursor

/-- A reader of tokens. When it fails, the cursor stays where the failure was seen. -/
abbrev Parser := EStateM SyntaxError Cursor

namespace Parser

def peek : Parser Token := do
  return (← get).current

def advance : Parser Token :=
  modifyGet fun c => (c.current, c.next)

def fail {α : Type} (cause : SyntaxError.Cause) (span : Span) : Parser α :=
  throw ⟨cause, span⟩

def check (kind : Kind) : Parser Bool := do
  return (← peek).kind = kind

def accept (kind : Kind) : Parser Bool := do
  if ← check kind then
    let _ ← advance
    return true
  else return false

def expect (kind : Kind) : Parser Token := do
  if ← check kind then advance
  else
    let found ← peek
    fail (.expected kind found.kind) found.span

def identifier (role : NameRole) : Parser Token := do
  if ← check .identifier then advance
  else
    let found ← peek
    fail (.expectedName role found.kind) found.span

def atCloser (closer : Kind) : Parser Bool := do
  return (← check closer) || (← check .endOfFile)

/-- Comparison operators are told by their kind first and by their text then. -/
def comparison? (token : Token) : Option Operator :=
  match token.kind with
  | .equalsCompare | .notEqualsCompare | .greater | .greaterEquals | .lesser | .lesserEquals =>
    Operator.ofSymbol? token.text
  | _ => none

def arithmetic? (symbols : List String) (token : Token) : Option Operator :=
  if token.kind = .operator ∧ token.text ∈ symbols then Operator.ofSymbol? token.text else none

/-- Operands joined by operators, from left to right. Like every loop below, it is given a bound on
the number of tokens ahead, and at least one goes in each round. -/
def chain (operator? : Token → Option Operator) (operand : Parser Expr) :
    Nat → Expr → Parser Expr
  | 0, left => return left
  | n + 1, left => do
    match operator? (← peek) with
    | none => return left
    | some operator =>
      let _ ← advance
      let right ← operand
      chain operator? operand n (.binary operator left right)

def items (nested : Parser Expr) (closer : Kind) : Nat → Parser (List Expr)
  | 0 => do
    let _ ← expect closer
    return []
  | n + 1 => do
    if ← atCloser closer then
      let _ ← expect closer
      return []
    else
      let item ← nested
      if ← accept .comma then
        return item :: (← items nested closer n)
      else
        let _ ← expect closer
        return [item]

def properties (nested : Parser Expr) : Nat → Parser (List Property)
  | 0 => do
    let _ ← expect .closeBrace
    return []
  | n + 1 => do
    if ← atCloser .closeBrace then
      let _ ← expect .closeBrace
      return []
    else
      let key := (← identifier .propertyName).text
      if ← accept .comma then
        return .copied key :: (← properties nested n)
      else if ← check .closeBrace then
        return .copied key :: (← properties nested n)
      else if ← accept .colon then
        let value ← nested
        if !(← check .closeBrace) then
          let _ ← expect .comma
        return .given key value :: (← properties nested n)
      else
        fail (.expectedColon key) (← peek).span

def primary (nested : Parser Expr) (n : Nat) : Parser Expr := do
  let token ← advance
  match token.kind with
  | .identifier => return .name token.text
  | .number =>
    match Number.read? token.text with
    | some value => return .number value
    | none => fail (.badNumber token.text) token.span
  | .string => return .string token.text
  | .openParen =>
    let inner ← nested
    let _ ← expect .closeParen
    return inner
  | .openBracket => return .array (← items nested .closeBracket n)
  | kind => fail (.unexpected kind) token.span

def links (nested : Parser Expr) : Nat → Expr → Parser Expr
  | 0, expr => return expr
  | n + 1, expr => do
    if ← accept .dot then
      let property ← identifier .memberName
      links nested n (.member expr (.name property.text) false)
    else if ← accept .openBracket then
      let property ← nested
      let _ ← expect .closeBracket
      links nested n (.member expr property true)
    else if ← accept .openParen then
      let arguments ← items nested .closeParen n
      links nested n (.call expr arguments)
    else return expr

def linked (nested : Parser Expr) (n : Nat) : Parser Expr := do
  links nested n (← primary nested n)

def multiplicative (nested : Parser Expr) (n : Nat) : Parser Expr := do
  chain (arithmetic? ["*", "/", "%"]) (linked nested n) n (← linked nested n)

def additive (nested : Parser Expr) (n : Nat) : Parser Expr := do
  chain (arithmetic? ["+", "-"]) (multiplicative nested n) n (← multiplicative nested n)

def comparison (nested : Parser Expr) (n : Nat) : Parser Expr := do
  chain comparison? (additive nested n) n (← additive nested n)

/-- An object literal stands by itself: no operator takes it as its left operand. -/
def object (nested : Parser Expr) (n : Nat) : Parser Expr := do
  if ← accept .openBrace then return .object (← properties nested n)
  else comparison nested n

/-- An expression, for at most `n` tokens ahead. With none there is nothing but the end mark. -/
def expression : Nat → Parser Expr
  | 0 => do
    let token ← peek
    fail (.unexpected token.kind) token.span
  | n + 1 => do
    let left ← object (expression n) n
    if ← accept .equals then return .assign left (← expression n)
    else return left

def parameters : Nat → Parser (List String)
  | 0 => return [(← identifier .parameterName).text]
  | n + 1 => do
    let parameter := (← identifier .parameterName).text
    if ← accept .comma then return parameter :: (← parameters n)
    else return [parameter]

def block (statement : Parser Stmt) : Nat → Parser (List Stmt)
  | 0 => do
    let _ ← expect .closeBrace
    return []
  | n + 1 => do
    if ← atCloser .closeBrace then
      let _ ← expect .closeBrace
      return []
    else if ← accept .semicolon then block statement n
    else
      let first ← statement
      return first :: (← block statement n)

def declaration (n : Nat) : Parser Stmt := do
  let keyword ← advance
  let constant : Bool := keyword.kind = .constWord
  let name ← identifier .variableName
  if ← accept .equals then
    return .declare constant name.text (some (← expression n))
  else if constant then
    fail (.uninitialized name.text) (keyword.span.cover name.span)
  else return .declare constant name.text none

def function (statement : Parser Stmt) (n : Nat) : Parser Stmt := do
  let _ ← expect .funcWord
  let name ← identifier .functionName
  let _ ← expect .openParen
  let names ← if ← check .closeParen then pure [] else parameters n
  let _ ← expect .closeParen
  let _ ← expect .openBrace
  return .function name.text names (← block statement n)

/-- A statement, for at most `n` tokens ahead. A semicolon may end it. -/
def statement : Nat → Parser Stmt
  | 0 => return .expr (← expression 0)
  | n + 1 => do
    let token ← peek
    let stmt ←
      match token.kind with
      | .letWord | .constWord => declaration n
      | .funcWord => function (statement n) n
      | .ifWord | .elseWord | .forWord => fail (.reserved token.kind) token.span
      | _ => .expr <$> expression (n + 1)
    let _ ← accept .semicolon
    return stmt

/-- Where reading goes on after an error: behind the next semicolon or at the next word that starts
a declaration. -/
def resume : List Token → List Token
  | [] => []
  | token :: rest =>
    match token.kind with
    | .semicolon => rest
    | .letWord | .constWord | .funcWord => token :: rest
    | _ => resume rest

def statements : Nat → Cursor → List Stmt × List SyntaxError
  | 0, _ => ([], [])
  | n + 1, c =>
    match c.current.kind with
    | .endOfFile => ([], [])
    | .semicolon => statements n c.next
    | _ =>
      match statement (n + 1) c with
      | .ok stmt c =>
        let (stmts, errors) := statements n c
        (stmt :: stmts, errors)
      | .error error c =>
        let (stmts, errors) := statements n { c with ahead := resume c.ahead.tail }
        (stmts, error :: errors)

end Parser

namespace Program

def ofTokens (tokens : List Token) : Except (List SyntaxError) Program :=
  let cursor := Cursor.ofTokens tokens
  match Parser.statements cursor.ahead.length cursor with
  | (stmts, []) => .ok stmts
  | (_, errors) => .error errors

/-- The program of a source text. Nothing is read of a text with characters that are no part of the
language. -/
def parse (source : String) : Except (List SyntaxError) Program :=
  match Source.tokenize source with
  | .ok tokens => ofTokens tokens
  | .error errors => .error (errors.map SyntaxError.ofUnrecognized)

end Program
end Script
