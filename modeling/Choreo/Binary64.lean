/-!
# Binary floating point

The finite values with 53 binary digits, each taken as the rational number that it is. `nearest`
rounds any rational to such a value, a half going to the even neighbour, so sums and quotients of
two values are rounded exactly once.
-/

namespace Choreo

/-- The nearest whole number, a half going to the even one. -/
def roundEven (q : Rat) : Int :=
  let below := q.floor
  let rest := q - below
  if rest < 1 / 2 then below
  else if 1 / 2 < rest then below + 1
  else if below % 2 = 0 then below
  else below + 1

namespace Binary64

/-- The exponent of the largest power of two that is at most `q`, for `0 < q`. -/
def floorLog (q : Rat) : Int :=
  let guess : Int := (Nat.log2 q.num.toNat : Int) - Nat.log2 q.den
  if (2 : Rat) ^ guess ≤ q then guess else guess - 1

/-- The exponent of the last place of the values around `q`. -/
def lastPlace (q : Rat) : Int := max (floorLog q - 52) (-1074)

/-- The value nearest to `q`, for `0 ≤ q`, as if there were no largest value. -/
def nearest (q : Rat) : Rat :=
  if q ≤ 0 then 0 else roundEven (q / (2 : Rat) ^ lastPlace q) * (2 : Rat) ^ lastPlace q

/-- From here on a rounded number is infinite. -/
def overflow : Rat := (2 : Rat) ^ (1024 : Int)

def add (a b : Rat) : Rat := nearest (a + b)

def div (a b : Rat) : Rat := nearest (a / b)

/-- The 64 bits that stand for the value `q`, for `0 ≤ q < 2 ^ 1024`: the exponent above the 52 digits
that follow the first one. -/
def bits (q : Rat) : Nat :=
  if q ≤ 0 then 0
  else
    let place := lastPlace q
    let digits := (q / (2 : Rat) ^ place).floor.toNat
    if digits < 4503599627370496 then digits
    else (place + 1075).toNat * 4503599627370496 + (digits - 4503599627370496)

end Binary64

end Choreo
