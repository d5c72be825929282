import Choreo.Decimal
import Choreo.Duration
import Choreo.Text.Blank

/-!
# Seconds

Scripts give waits as decimal seconds. A number is first rounded to a binary value and then to the
nearest nanosecond, both times with a half going to the even neighbour. In the other direction a
duration is rounded to a binary value and printed with at most three decimals.
-/

namespace Choreo.Duration

/-- The duration nearest to a binary number of seconds, if there is one that long. -/
def ofBinarySeconds? (value : Rat) : Option Duration :=
  let nanos := (roundEven (value * 1000000000)).toNat
  if h : nanos ≤ maxNanos then some ⟨nanos, h⟩ else none

/-- The duration that a text gives in seconds. Negative zero is zero; other negative numbers, the
infinite ones and those too large give none. -/
def ofSecondsText? (cs : List Char) : Option Duration :=
  match Number.read? (Text.trim cs) with
  | some (.finite negative magnitude) =>
    match magnitude.toBinary64? with
    | some value =>
      if value = 0 then some zero
      else if negative then none
      else ofBinarySeconds? value
    | none => none
  | _ => none

/-- The binary number of seconds: the seconds and the rest are rounded, and then their sum. -/
def binarySeconds (d : Duration) : Rat :=
  Binary64.add (Binary64.nearest d.seconds) (Binary64.div d.subsecond 1000000000)

/-- Seconds with at most three decimals and no superfluous zero. -/
def secondsText (d : Duration) : String :=
  let thousandths := (roundEven (d.binarySeconds * 1000)).toNat
  let whole := Nat.repr (thousandths / 1000)
  let decimals := (padded 3 (thousandths % 1000)).toList.reverse.dropWhile (· = '0')
  if decimals = [] then whole else whole ++ "." ++ String.ofList decimals.reverse

end Choreo.Duration
