namespace Script.Number

/-- The number nearest to `digits` times ten to the `exponent`. Far outside the range of numbers it
is infinite or zero at once. -/
def ofDecimal (digits : Nat) (exponent : Int) : Float :=
  let point := (Nat.toDigits 10 digits).length + exponent
  if digits = 0 ∨ point < -400 then 0.0
  else if 400 < point then 1.0 / 0.0
  else if 0 ≤ exponent then Float.ofScientific digits false exponent.toNat
  else Float.ofScientific digits true (-exponent).toNat

def digitsValue (cs : List Char) : Nat :=
  cs.foldl (fun n c => 10 * n + (c.toNat - '0'.toNat)) 0

def exponent? : List Char → Option Int
  | [] => some 0
  | mark :: cs =>
    if mark = 'e' ∨ mark = 'E' then
      let (negative, digits) :=
        match cs with
        | '-' :: ds => (true, ds)
        | '+' :: ds => (false, ds)
        | ds => (false, ds)
      if digits ≠ [] ∧ digits.all Char.isDigit then
        some (if negative then -(digitsValue digits : Int) else digitsValue digits)
      else none
    else none

/-- Digits with a point among or around them, at least one digit in all, and an exponent part. -/
def numeral? (cs : List Char) : Option Float :=
  let whole := cs.takeWhile Char.isDigit
  let (fraction, rest) :=
    match cs.dropWhile Char.isDigit with
    | '.' :: more => (more.takeWhile Char.isDigit, more.dropWhile Char.isDigit)
    | more => ([], more)
  if whole = [] ∧ fraction = [] then none
  else (exponent? rest).map fun e =>
    ofDecimal (digitsValue (whole ++ fraction)) (e - fraction.length)

/-- A numeral or the name of a number that no numeral has, in any mix of case. -/
def unsigned? (cs : List Char) : Option Float :=
  let name := String.ofList (cs.map Char.toLower)
  if name = "inf" ∨ name = "infinity" then some (1.0 / 0.0)
  else if name = "nan" then some (0.0 / 0.0)
  else numeral? cs

def read? (text : String) : Option Float :=
  match text.toList with
  | '-' :: cs => (unsigned? cs).map Float.neg
  | '+' :: cs => unsigned? cs
  | cs => unsigned? cs

end Script.Number
