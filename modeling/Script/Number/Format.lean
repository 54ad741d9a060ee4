import Script.Number.Shortest

namespace Script.Number

def Decimal.positional (d : Decimal) : List Char :=
  let digits := Nat.toDigits 10 d.digits
  if 0 ≤ d.scale then digits ++ List.replicate d.scale.toNat '0'
  else
    let places := (-d.scale).toNat
    if places < digits.length then
      digits.take (digits.length - places) ++ '.' :: digits.drop (digits.length - places)
    else '0' :: '.' :: List.replicate (places - digits.length) '0' ++ digits

structure Style where
  infinity : String
  /-- Is a negative zero told apart from zero? -/
  signedZero : Bool

/-- The text of a number: the fewest digits that read back as it, written positionally. -/
def Style.format (style : Style) (x : Float) : String :=
  let sign (negative : Bool) := if negative then "-" else ""
  match exact x with
  | .nan => "NaN"
  | .infinite negative => sign negative ++ style.infinity
  | .finite negative 0 _ => sign (negative && style.signedZero) ++ "0"
  | .finite negative significand exponent =>
    sign negative ++ String.ofList (shortest significand exponent).positional

/-- How values are shown: zero has no sign. -/
def shown : Style := ⟨"Infinity", false⟩

def asIndex : Style := ⟨"inf", true⟩

end Script.Number
