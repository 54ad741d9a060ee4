import Script.Span

namespace Script

inductive Kind where
  | number | string | identifier
  | letWord | constWord | funcWord | ifWord | elseWord | forWord
  | operator | equals | comma | dot | colon | semicolon
  | openParen | closeParen | openBrace | closeBrace | openBracket | closeBracket
  | greater | greaterEquals | lesser | lesserEquals | equalsCompare | notEqualsCompare
  | exclamation | doubleAmpersand | ampersand | bar | arrow
  | endOfFile
  deriving DecidableEq, Repr

namespace Kind

def all : List Kind :=
  [number, string, identifier, letWord, constWord, funcWord, ifWord, elseWord, forWord, operator,
    equals, comma, dot, colon, semicolon, openParen, closeParen, openBrace, closeBrace, openBracket,
    closeBracket, greater, greaterEquals, lesser, lesserEquals, equalsCompare, notEqualsCompare,
    exclamation, doubleAmpersand, ampersand, bar, arrow, endOfFile]

def name : Kind → String
  | number => "Number"
  | string => "String"
  | identifier => "Identifier"
  | letWord => "Let"
  | constWord => "Const"
  | funcWord => "Func"
  | ifWord => "If"
  | elseWord => "Else"
  | forWord => "For"
  | operator => "BinaryOperator"
  | equals => "Equals"
  | comma => "Comma"
  | dot => "Dot"
  | colon => "Colon"
  | semicolon => "Semicolon"
  | openParen => "OpenParen"
  | closeParen => "CloseParen"
  | openBrace => "OpenBrace"
  | closeBrace => "CloseBrace"
  | openBracket => "OpenBracket"
  | closeBracket => "CloseBracket"
  | greater => "Greater"
  | greaterEquals => "GreaterEquals"
  | lesser => "Lesser"
  | lesserEquals => "LesserEquals"
  | equalsCompare => "EqualsCompare"
  | notEqualsCompare => "NotEqualsCompare"
  | exclamation => "Exclamation"
  | doubleAmpersand => "And"
  | ampersand => "Ampersand"
  | bar => "Bar"
  | arrow => "Arrow"
  | endOfFile => "Eof"

def ofName? (name : String) : Option Kind :=
  all.find? fun kind => kind.name = name

def description : Kind → String
  | number => "number"
  | string => "string"
  | identifier => "identifier"
  | letWord => "`let`"
  | constWord => "`const`"
  | funcWord => "`func`"
  | ifWord => "`if`"
  | elseWord => "`else`"
  | forWord => "`for`"
  | operator => "operator"
  | equals => "`=`"
  | comma => "`,`"
  | dot => "`.`"
  | colon => "`:`"
  | semicolon => "`;`"
  | openParen => "`(`"
  | closeParen => "`)`"
  | openBrace => "`\x7b`"
  | closeBrace => "`\x7d`"
  | openBracket => "`[`"
  | closeBracket => "`]`"
  | greater => "`>`"
  | greaterEquals => "`>=`"
  | lesser => "`<`"
  | lesserEquals => "`<=`"
  | equalsCompare => "`==`"
  | notEqualsCompare => "`!=`"
  | exclamation => "`!`"
  | doubleAmpersand => "`&&`"
  | ampersand => "`&`"
  | bar => "`|`"
  | arrow => "`->`"
  | endOfFile => "end of file"

def keyword? (word : String) : Option Kind :=
  if word = "let" then some letWord
  else if word = "const" then some constWord
  else if word = "func" then some funcWord
  else if word = "if" then some ifWord
  else if word = "else" then some elseWord
  else if word = "for" then some forWord
  else none

/-- Kinds that can close an operand: a minus sign behind one of them subtracts. -/
def endsOperand : Kind → Bool
  | number | string | identifier | closeParen | closeBracket => true
  | _ => false

theorem mem_all (kind : Kind) : kind ∈ all := by
  cases kind <;> decide

theorem ofName?_name (kind : Kind) : ofName? kind.name = some kind := by
  cases kind <;> decide

theorem name_injective {a b : Kind} (h : a.name = b.name) : a = b := by
  have hb := ofName?_name b
  rw [← h, ofName?_name a] at hb
  exact Option.some.inj hb

end Kind

/-- A token with its place in the source. Only for a string do `raw`, the text as written, and
`text`, the text as meant, differ. -/
structure Token where
  kind : Kind
  text : String
  raw : String
  span : Span
  deriving DecidableEq, Repr

namespace Token

def plain (kind : Kind) (text : String) (span : Span) : Token :=
  ⟨kind, text, text, span⟩

def endOfFile (position : Nat) : Token :=
  plain .endOfFile "EndOfFile" (Span.point position)

end Token
end Script
