import Script.Token

namespace Script.Token

/-- Length of the longest assignment target that ends a token list given last token first. A target
is a name followed by links `.name`, `[number]` or `[name]`; read from its end, a name with no dot
before it is where it starts. -/
def pathLength? : List Token → Option Nat
  | [] => none
  | last :: before =>
    match last.kind, before with
    | .closeBracket, index :: bracket :: before =>
      if (index.kind = .number ∨ index.kind = .identifier) ∧ bracket.kind = .openBracket then
        (pathLength? before).map (· + 3)
      else none
    | .identifier, link :: before =>
      if link.kind = .dot then (pathLength? before).map (· + 2) else some 1
    | .identifier, [] => some 1
    | _, _ => none

def pathBefore? (before : List Token) : Option (List Token) :=
  (pathLength? before).map fun n => (before.take n).reverse

def assignablePath? (tokens : List Token) : Option (List Token) :=
  pathBefore? tokens.reverse

end Script.Token
