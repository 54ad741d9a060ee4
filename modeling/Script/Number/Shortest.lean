import Script.Number.Exact

namespace Script.Number

def pow10 (n : Nat) : Nat := Nat.pow 10 n

structure Decimal where
  digits : Nat
  scale : Int
  deriving DecidableEq, Repr

/-- The reals that round to one number, all as numerators over `denominator`. -/
structure Neighbourhood where
  lower : Nat
  value : Nat
  upper : Nat
  denominator : Nat
  /-- Do the ends belong to it? -/
  closed : Bool

namespace Neighbourhood

/-- Half the distance to either neighbour belongs to a number. Below a power of two the neighbours
are twice as close, and a tie goes to an even significand. -/
def of (significand : Nat) (exponent : Int) : Neighbourhood :=
  let narrow := significand = pow2 52 ∧ leastExponent < exponent
  let factor := pow2 (exponent - 2).toNat
  { lower := (4 * significand - if narrow then 1 else 2) * factor
    value := 4 * significand * factor
    upper := (4 * significand + 2) * factor
    denominator := pow2 (2 - exponent).toNat
    closed := significand % 2 = 0 }

def holds (n : Neighbourhood) (digits : Nat) (scale : Int) : Bool :=
  let point := digits * pow10 scale.toNat * n.denominator
  let down := pow10 (-scale).toNat
  if n.closed then n.lower * down ≤ point && point ≤ n.upper * down
  else n.lower * down < point && point < n.upper * down

/-- The place of the decimal point: the value is below ten to it, and not below a tenth of that. -/
def point (n : Neighbourhood) : Int :=
  if n.denominator ≤ n.value then ((Nat.toDigits 10 (n.value / n.denominator)).length : Int)
  else
    let inverse := (n.denominator - 1) / n.value
    1 - ((Nat.toDigits 10 inverse).length : Int)

/-- The multiple of ten to the `scale` in the neighbourhood that is nearest to the value, if there
is one. Of two at the same distance it is the upper. -/
def nearest? (n : Neighbourhood) (scale : Int) : Option Nat :=
  let unit := pow10 scale.toNat * n.denominator
  let value := n.value * pow10 (-scale).toNat
  let below := value / unit
  match n.holds below scale, n.holds (below + 1) scale with
  | true, true => if 2 * (value - below * unit) < unit then some below else some (below + 1)
  | true, false => some below
  | false, true => some (below + 1)
  | false, false => none

end Neighbourhood

/-- The same decimal with no zero at the end. A carry leaves at most one. -/
def Decimal.trim (d : Decimal) : Decimal :=
  if d.digits % 10 = 0 then ⟨d.digits / 10, d.scale + 1⟩ else d

/-- The decimal of fewest digits that rounds to the number, and of those the nearest. Seventeen
digits always suffice. -/
def shortest (significand : Nat) (exponent : Int) : Decimal :=
  let n := Neighbourhood.of significand exponent
  let found := (List.range 17).findSome? fun (i : Nat) =>
    let scale := n.point - (i + 1)
    (n.nearest? scale).map fun digits => Decimal.trim ⟨digits, scale⟩
  found.getD ⟨0, 0⟩

end Script.Number
