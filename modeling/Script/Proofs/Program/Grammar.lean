import Script.Program.Parser
import Script.Proofs.Token.Lexeme

namespace Script

inductive Level where
  | assignment | object | comparison | additive | multiplicative | linked | primary
  deriving DecidableEq, Repr

def Level.operand? : Level → Option Level
  | comparison => some additive
  | additive => some multiplicative
  | multiplicative => some linked
  | linked => some primary
  | assignment | object | primary => none

namespace Operator

def level : Operator → Level
  | add | subtract => .additive
  | multiply | divide | remainder => .multiplicative
  | greater | greaterEqual | less | lessEqual | equal | notEqual => .comparison

def kind : Operator → Kind
  | add | subtract | multiply | divide | remainder => .operator
  | greater => .greater
  | greaterEqual => .greaterEquals
  | less => .lesser
  | lessEqual => .lesserEquals
  | equal => .equalsCompare
  | notEqual => .notEqualsCompare

def sign (operator : Operator) : Lexeme :=
  ⟨operator.kind, operator.symbol⟩

theorem symbol_of_ofSymbol? {text : String} {operator : Operator}
    (h : ofSymbol? text = some operator) : operator.symbol = text := by
  simpa using List.find?_some h

end Operator

mutual

/-- `Derives level ls e`: the lexemes are an expression of the level, and mean `e`. -/
inductive Derives : Level → List Lexeme → Expr → Prop
  | value {ls : List Lexeme} {e : Expr} (h : Derives .object ls e) : Derives .assignment ls e
  | assign {ls ms : List Lexeme} {equals : Lexeme} {target value : Expr}
      (htarget : Derives .object ls target) (hequals : equals.kind = .equals)
      (hvalue : Derives .assignment ms value) :
      Derives .assignment (ls ++ equals :: ms) (.assign target value)
  | operand {ls : List Lexeme} {e : Expr} (h : Derives .comparison ls e) : Derives .object ls e
  | object {ls : List Lexeme} {opener closer : Lexeme} {properties : List Property}
      (hopener : opener.kind = .openBrace) (h : DerivesProperties ls properties)
      (hcloser : closer.kind = .closeBrace) :
      Derives .object (opener :: ls ++ [closer]) (.object properties)
  | chain {level operand : Level} {ls ms : List Lexeme} {first e : Expr}
      (hlevel : level.operand? = some operand) (hfirst : Derives operand ls first)
      (hlinks : DerivesLinks level first ms e) : Derives level (ls ++ ms) e
  | number {l : Lexeme} {value : Float} (hl : l.kind = .number)
      (hvalue : Number.read? l.text = some value) : Derives .primary [l] (.number value)
  | string {l : Lexeme} (hl : l.kind = .string) : Derives .primary [l] (.string l.text)
  | name {l : Lexeme} (hl : l.kind = .identifier) : Derives .primary [l] (.name l.text)
  | paren {ls : List Lexeme} {opener closer : Lexeme} {e : Expr}
      (hopener : opener.kind = .openParen) (h : Derives .assignment ls e)
      (hcloser : closer.kind = .closeParen) : Derives .primary (opener :: ls ++ [closer]) e
  | array {ls : List Lexeme} {opener closer : Lexeme} {elements : List Expr}
      (hopener : opener.kind = .openBracket) (h : DerivesItems ls elements)
      (hcloser : closer.kind = .closeBracket) :
      Derives .primary (opener :: ls ++ [closer]) (.array elements)

/-- `DerivesLinks level e ls e'`: what the lexemes add to `e` makes it `e'`, from left to right. -/
inductive DerivesLinks : Level → Expr → List Lexeme → Expr → Prop
  | nil {level : Level} {e : Expr} : DerivesLinks level e [] e
  | binary {operator : Operator} {operand : Level} {ls ms : List Lexeme} {left right e : Expr}
      (hlevel : operator.level.operand? = some operand) (hright : Derives operand ls right)
      (hlinks : DerivesLinks operator.level (.binary operator left right) ms e) :
      DerivesLinks operator.level left (operator.sign :: ls ++ ms) e
  | member {dot name : Lexeme} {ms : List Lexeme} {object e : Expr} (hdot : dot.kind = .dot)
      (hname : name.kind = .identifier)
      (hlinks : DerivesLinks .linked (.member object (.name name.text) false) ms e) :
      DerivesLinks .linked object (dot :: name :: ms) e
  | index {opener closer : Lexeme} {ls ms : List Lexeme} {object property e : Expr}
      (hopener : opener.kind = .openBracket) (h : Derives .assignment ls property)
      (hcloser : closer.kind = .closeBracket)
      (hlinks : DerivesLinks .linked (.member object property true) ms e) :
      DerivesLinks .linked object (opener :: ls ++ closer :: ms) e
  | call {opener closer : Lexeme} {ls ms : List Lexeme} {callee e : Expr} {arguments : List Expr}
      (hopener : opener.kind = .openParen) (h : DerivesItems ls arguments)
      (hcloser : closer.kind = .closeParen)
      (hlinks : DerivesLinks .linked (.call callee arguments) ms e) :
      DerivesLinks .linked callee (opener :: ls ++ closer :: ms) e

/-- Expressions between commas. One more comma may stand at the end. -/
inductive DerivesItems : List Lexeme → List Expr → Prop
  | nil : DerivesItems [] []
  | last {ls : List Lexeme} {e : Expr} (h : Derives .assignment ls e) : DerivesItems ls [e]
  | cons {comma : Lexeme} {ls ms : List Lexeme} {e : Expr} {es : List Expr}
      (h : Derives .assignment ls e) (hcomma : comma.kind = .comma) (hrest : DerivesItems ms es) :
      DerivesItems (ls ++ comma :: ms) (e :: es)

inductive DerivesProperties : List Lexeme → List Property → Prop
  | nil : DerivesProperties [] []
  | last {ls : List Lexeme} {property : Property} (h : DerivesProperty ls property) :
      DerivesProperties ls [property]
  | cons {comma : Lexeme} {ls ms : List Lexeme} {property : Property} {properties : List Property}
      (h : DerivesProperty ls property) (hcomma : comma.kind = .comma)
      (hrest : DerivesProperties ms properties) :
      DerivesProperties (ls ++ comma :: ms) (property :: properties)

inductive DerivesProperty : List Lexeme → Property → Prop
  | copied {key : Lexeme} (hkey : key.kind = .identifier) :
      DerivesProperty [key] (.copied key.text)
  | given {key colon : Lexeme} {ls : List Lexeme} {value : Expr} (hkey : key.kind = .identifier)
      (hcolon : colon.kind = .colon) (hvalue : Derives .assignment ls value) :
      DerivesProperty (key :: colon :: ls) (.given key.text value)

end

def Kind.openers : List Kind :=
  [.number, .string, .identifier, .openParen, .openBracket]

def Level.StartsWith (level : Level) (kind : Kind) : Prop :=
  kind ∈ Kind.openers ∨ kind = .openBrace ∧ (level = .assignment ∨ level = .object)

theorem Derives.startsWith {level : Level} {ls : List Lexeme} {e : Expr} :
    Derives level ls e → ∃ l ms, ls = l :: ms ∧ level.StartsWith l.kind
  | .value h => by
    obtain ⟨l, ms, rfl, hl⟩ := h.startsWith
    exact ⟨l, ms, rfl, hl.imp_right (And.imp_right fun _ => .inl rfl)⟩
  | .assign htarget _ _ => by
    obtain ⟨l, ms, rfl, hl⟩ := htarget.startsWith
    exact ⟨l, _, rfl, hl.imp_right (And.imp_right fun _ => .inl rfl)⟩
  | .operand h => by
    obtain ⟨l, ms, rfl, hl⟩ := h.startsWith
    exact ⟨l, ms, rfl, hl.imp_right (And.imp_right fun h => by simp at h)⟩
  | .object hopener _ _ => ⟨_, _, rfl, .inr ⟨hopener, .inr rfl⟩⟩
  | .chain hlevel hfirst _ => by
    obtain ⟨l, ms, rfl, hl⟩ := hfirst.startsWith
    refine ⟨l, _, rfl, hl.imp_right (And.imp_right fun h => ?_)⟩
    cases level <;> cases hlevel <;> simp at h
  | .number hl _ => ⟨_, _, rfl, .inl (by rw [hl]; decide)⟩
  | .string hl => ⟨_, _, rfl, .inl (by rw [hl]; decide)⟩
  | .name hl => ⟨_, _, rfl, .inl (by rw [hl]; decide)⟩
  | .paren hopener _ _ => ⟨_, _, rfl, .inl (by rw [hopener]; decide)⟩
  | .array hopener _ _ => ⟨_, _, rfl, .inl (by rw [hopener]; decide)⟩

theorem Derives.length_pos {level : Level} {ls : List Lexeme} {e : Expr} (h : Derives level ls e) :
    0 < ls.length := by
  obtain ⟨l, ms, rfl, _⟩ := h.startsWith
  exact Nat.succ_pos _

inductive DerivesNames : List Lexeme → List String → Prop
  | last {name : Lexeme} (hname : name.kind = .identifier) : DerivesNames [name] [name.text]
  | cons {name comma : Lexeme} {ls : List Lexeme} {names : List String}
      (hname : name.kind = .identifier) (hcomma : comma.kind = .comma)
      (hrest : DerivesNames ls names) : DerivesNames (name :: comma :: ls) (name.text :: names)

inductive DerivesParameters : List Lexeme → List String → Prop
  | none : DerivesParameters [] []
  | names {ls : List Lexeme} {names : List String} (h : DerivesNames ls names) :
      DerivesParameters ls names

mutual

inductive DerivesForm : List Lexeme → Stmt → Prop
  | bare {word name : Lexeme} (hword : word.kind = .letWord) (hname : name.kind = .identifier) :
      DerivesForm [word, name] (.declare false name.text none)
  | declare {constant : Bool} {word name equals : Lexeme} {ls : List Lexeme} {value : Expr}
      (hword : word.kind = if constant then .constWord else .letWord)
      (hname : name.kind = .identifier) (hequals : equals.kind = .equals)
      (hvalue : Derives .assignment ls value) :
      DerivesForm (word :: name :: equals :: ls) (.declare constant name.text (some value))
  | function {word name opener closer left right : Lexeme} {ls ms : List Lexeme}
      {parameters : List String} {body : List Stmt} (hword : word.kind = .funcWord)
      (hname : name.kind = .identifier) (hopener : opener.kind = .openParen)
      (hparameters : DerivesParameters ls parameters) (hcloser : closer.kind = .closeParen)
      (hleft : left.kind = .openBrace) (hbody : DerivesBody ms body)
      (hright : right.kind = .closeBrace) :
      DerivesForm (word :: name :: opener :: ls ++ closer :: left :: ms ++ [right])
        (.function name.text parameters body)
  | expr {ls : List Lexeme} {e : Expr} (h : Derives .assignment ls e) : DerivesForm ls (.expr e)

inductive DerivesStmt : List Lexeme → Stmt → Prop
  | plain {ls : List Lexeme} {stmt : Stmt} (h : DerivesForm ls stmt) : DerivesStmt ls stmt
  | ended {ls : List Lexeme} {semicolon : Lexeme} {stmt : Stmt} (h : DerivesForm ls stmt)
      (hsemicolon : semicolon.kind = .semicolon) : DerivesStmt (ls ++ [semicolon]) stmt

inductive DerivesBody : List Lexeme → List Stmt → Prop
  | nil : DerivesBody [] []
  | semicolon {semicolon : Lexeme} {ls : List Lexeme} {stmts : List Stmt}
      (hsemicolon : semicolon.kind = .semicolon) (h : DerivesBody ls stmts) :
      DerivesBody (semicolon :: ls) stmts
  | cons {ls ms : List Lexeme} {stmt : Stmt} {stmts : List Stmt} (h : DerivesStmt ls stmt)
      (hrest : DerivesBody ms stmts) : DerivesBody (ls ++ ms) (stmt :: stmts)

end

theorem DerivesStmt.ne_nil {ls : List Lexeme} {stmt : Stmt} (h : DerivesStmt ls stmt) :
    ls ≠ [] := by
  have hform : ∀ ls, DerivesForm ls stmt → ls ≠ [] := by
    intro ls hform
    cases hform with
    | expr he =>
      obtain ⟨l, ms, rfl, _⟩ := he.startsWith
      simp
    | _ => simp
  cases h with
  | plain h => exact hform ls h
  | ended h => simp

end Script
