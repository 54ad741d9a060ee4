import Script.Text.Alphabetic
import Script.Token.Path

namespace Script

/-- A piece of source text that is read in one go. -/
inductive Stretch where
  | blank (c : Char)
  | lineComment (body : List Char)
  /-- The body runs to the closing mark and includes it, or to the end of the source. -/
  | blockComment (body : List Char)
  | unknown (c : Char)
  | number (text : List Char)
  | quoted (quote : Char) (raw : List Char) (closed : Bool)
  | word (text : List Char)
  | symbol (kind : Kind) (text : List Char)
  /-- A minus sign with no operand before it. -/
  | negation
  /-- An operator that updates the target before it: `+=` and its like, or, when doubled, `++`
  and `--`. -/
  | compound (target : List Token) (operator : Char) (doubled : Bool)

namespace Stretch

def text : Stretch → List Char
  | blank c => [c]
  | lineComment body => '/' :: '/' :: body
  | blockComment body => '/' :: '*' :: body
  | unknown c => [c]
  | number text => text
  | quoted quote raw closed => quote :: raw ++ if closed then [quote] else []
  | word text => text
  | symbol _ text => text
  | negation => ['-']
  | compound _ operator doubled => [operator, if doubled then operator else '=']

/-- What a backslash and the character behind it stand for inside a string. An escape that has no
meaning stands for itself. -/
def unescape (quote c : Char) : List Char :=
  if c = 'n' then ['\n']
  else if c = 't' then ['\t']
  else if c = 'r' then ['\r']
  else if c = quote ∨ c = '\\' then [c]
  else ['\\', c]

/-- The meaning of the text between quotes. A backslash at the very end means nothing. -/
def decode (quote : Char) : List Char → List Char
  | [] => []
  | ['\\'] => []
  | '\\' :: c :: cs => unescape quote c ++ decode quote cs
  | c :: cs => c :: decode quote cs

/-- The tokens that a stretch stands for. An update is written out as an assignment to its target,
and a minus sign with no operand before it subtracts from zero. -/
def tokens (stretch : Stretch) (span : Span) : List Token :=
  match stretch with
  | number text => [.plain .number (String.ofList text) span]
  | quoted quote raw _ =>
    [⟨.string, String.ofList (decode quote raw), String.ofList raw, span⟩]
  | word text =>
    let word := String.ofList text
    [.plain ((Kind.keyword? word).getD .identifier) word span]
  | symbol kind text => [.plain kind (String.ofList text) span]
  | negation => [.plain .number "0" span, .plain .operator "-" span]
  | compound target operator doubled =>
    .plain .equals "=" span :: target ++
      .plain .operator (String.singleton operator) span ::
        if doubled then [.plain .number "1" span] else []
  | blank _ | lineComment _ | blockComment _ | unknown _ => []

def isBlank (c : Char) : Bool :=
  c = ' ' || c = '\n' || c = '\t' || c = '\r'

def blockBody : List Char → List Char
  | [] => []
  | '*' :: '/' :: _ => ['*', '/']
  | c :: cs => c :: blockBody cs

def numeral (cs : List Char) : List Char :=
  let whole := cs.takeWhile Char.isDigit
  match cs.dropWhile Char.isDigit with
  | '.' :: rest => whole ++ '.' :: rest.takeWhile Char.isDigit
  | _ => whole

/-- The text up to the closing quote, and whether there is one. A character behind a backslash never
closes the string. -/
def rawBody (quote : Char) : List Char → List Char × Bool
  | [] => ([], false)
  | ['\\'] => (['\\'], false)
  | '\\' :: c :: cs =>
    let (raw, closed) := rawBody quote cs
    ('\\' :: c :: raw, closed)
  | c :: cs =>
    if c = quote then ([], true)
    else
      let (raw, closed) := rawBody quote cs
      (c :: raw, closed)

def followsOperand : List Token → Bool
  | [] => false
  | last :: _ => last.kind.endsOperand

def arithmetic (before : List Token) (c : Char) (cs : List Char) : Stretch :=
  if c = '-' && cs.head? = some '>' then symbol .arrow ['-', '>']
  else
    let doubled := (c = '+' || c = '-') && cs.head? = some c
    let target? := if doubled || cs.head? = some '=' then Token.pathBefore? before else none
    match target? with
    | some target => compound target c doubled
    | none =>
      if c = '-' && !doubled && !followsOperand before then negation
      else symbol .operator [c]

def singles : List (Char × Kind) :=
  [('(', .openParen), (')', .closeParen), ('\x7b', .openBrace), ('\x7d', .closeBrace),
    ('[', .openBracket), (']', .closeBracket), (',', .comma), ('.', .dot), (':', .colon),
    (';', .semicolon), ('|', .bar), ('%', .operator)]

/-- Symbols that may be the first of a pair: what completes the pair, the kind of the pair, and the
kind of the symbol alone. -/
def pairs : List (Char × Char × Kind × Kind) :=
  [('=', '=', .equalsCompare, .equals), ('!', '=', .notEqualsCompare, .exclamation),
    ('&', '&', .doubleAmpersand, .ampersand), ('<', '=', .lesserEquals, .lesser),
    ('>', '=', .greaterEquals, .greater)]

def punctuation (c : Char) (cs : List Char) : Stretch :=
  match singles.lookup c, pairs.lookup c with
  | some kind, _ => symbol kind [c]
  | none, some (second, paired, alone) =>
    if cs.head? = some second then symbol paired [c, second] else symbol alone [c]
  | none, none => unknown c

/-- The stretch that starts with `c` and continues in `cs`. The tokens before it, last one first,
decide what a minus sign means and what an update applies to. -/
def read (before : List Token) (c : Char) (cs : List Char) : Stretch :=
  if isBlank c then blank c
  else if c = '/' && cs.head? = some '/' then lineComment (cs.tail.takeWhile (· ≠ '\n'))
  else if c = '/' && cs.head? = some '*' then blockComment (blockBody cs.tail)
  else if c.isDigit then number (numeral (c :: cs))
  else if c = '-' && cs.head?.any Char.isDigit && !followsOperand before then
    number ('-' :: numeral cs)
  else if c = '"' || c = '\'' then
    let (raw, closed) := rawBody c cs
    quoted c raw closed
  else if Text.isAlphabetic c then word (c :: cs.takeWhile Text.isAlphabetic)
  else if c = '+' || c = '-' || c = '*' || c = '/' then arithmetic before c cs
  else punctuation c cs

end Stretch
end Script
