namespace Script.Number

def pow2 (n : Nat) : Nat := Nat.pow 2 n

/-- What a binary floating-point number stands for: a finite one is the significand times two to the
exponent, with a sign of its own also at zero. -/
inductive Exact where
  | nan
  | infinite (negative : Bool)
  | finite (negative : Bool) (significand : Nat) (exponent : Int)
  deriving DecidableEq, Repr

def leastExponent : Int := -1074

def exact (x : Float) : Exact :=
  let bits := x.toBits.toNat
  let negative : Bool := pow2 63 ≤ bits
  let biased : Nat := bits / pow2 52 % pow2 11
  let fraction := bits % pow2 52
  if biased = 2047 then
    if fraction = 0 then .infinite negative else .nan
  else if biased = 0 then .finite negative fraction leastExponent
  else .finite negative (pow2 52 + fraction) (leastExponent + biased - 1)

/-- The number with this sign, significand and exponent, for a significand of at most 53 bits and an
exponent that some number has. -/
def pack (negative : Bool) (significand : Nat) (exponent : Int) : Float :=
  let shift := min (52 - significand.log2) (exponent - leastExponent).toNat
  let significand := significand * pow2 shift
  let biased := if significand < pow2 52 then 0 else (exponent - shift - leastExponent + 1).toNat
  let sign := if negative then pow2 63 else 0
  Float.ofBits (UInt64.ofNat (sign + biased * pow2 52 + significand % pow2 52))

def wholePart (significand : Nat) (exponent : Int) : Nat :=
  if 0 ≤ exponent then significand * pow2 exponent.toNat
  else significand / pow2 (-exponent).toNat

def truncate (x : Float) : Float :=
  match exact x with
  | .finite negative significand exponent =>
    if 0 ≤ exponent then x else pack negative (wholePart significand exponent) 0
  | _ => x

/-- The position in a sequence that a number names: its whole part, unless that is below zero. -/
def position? (x : Float) : Option Nat :=
  match exact x with
  | .finite negative significand exponent =>
    let whole := wholePart significand exponent
    if negative ∧ whole ≠ 0 then none else some whole
  | _ => none

/-- What is left of `x` after taking away whole multiples of `y`, with the sign of `x`. The result
is exact. -/
def remainder (x y : Float) : Float :=
  match exact x, exact y with
  | .finite negative a p, .finite _ b q =>
    if b = 0 then 0.0 / 0.0
    else
      let exponent := min p q
      let dividend := a * pow2 (p - exponent).toNat
      let divisor := b * pow2 (q - exponent).toNat
      pack negative (dividend % divisor) exponent
  | .finite _ _ _, .infinite _ => x
  | _, _ => 0.0 / 0.0

end Script.Number
