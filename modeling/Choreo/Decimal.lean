import Choreo.Binary64

/-!
# Decimal numbers

Numbers as people write them: an optional sign, digits with an optional point, and an optional
power of ten, or one of the names for the infinite and for what is not a number. A number is worth
the binary value nearest to it.
-/

namespace Choreo

/-- The number `digits * 10 ^ exponent`. -/
structure Decimal where
  digits : Nat
  exponent : Int
deriving DecidableEq

namespace Decimal

def ofDigits (cs : List Char) : Nat := cs.foldl (fun n c => 10 * n + (c.toNat - '0'.toNat)) 0

/-- A whole number with an optional sign, filling the text. -/
def readInteger? (cs : List Char) : Option Int :=
  let (negative, cs) := match cs with
    | '-' :: rest => (true, rest)
    | '+' :: rest => (false, rest)
    | _ => (false, cs)
  if cs = [] ∨ !cs.all Char.isDigit then none
  else some (if negative then -(ofDigits cs : Int) else ofDigits cs)

/-- A number without a sign, filling the text. At least one digit stands beside the point. -/
def read? (cs : List Char) : Option Decimal :=
  let whole := cs.takeWhile Char.isDigit
  let (fraction, rest) := match cs.dropWhile Char.isDigit with
    | '.' :: rest => (rest.takeWhile Char.isDigit, rest.dropWhile Char.isDigit)
    | rest => ([], rest)
  let scaled (exponent : Int) : Decimal := ⟨ofDigits (whole ++ fraction), exponent - fraction.length⟩
  if whole = [] ∧ fraction = [] then none
  else match rest with
    | [] => some (scaled 0)
    | c :: rest => if c = 'e' ∨ c = 'E' then (readInteger? rest).map scaled else none

/-- The binary value nearest to a number, or `none` if that is infinite. Numbers from `10 ^ 400` on
and positive ones below `10 ^ -400` are far outside the binary range, and their powers of ten are not
worked out. -/
def toBinary64? (d : Decimal) : Option Rat :=
  let magnitude : Int := (Nat.toDigits 10 d.digits).length + d.exponent
  if d.digits = 0 then some 0
  else if 400 < magnitude then none
  else if magnitude < -400 then some 0
  else
    let value := Binary64.nearest (d.digits * (10 : Rat) ^ d.exponent)
    if value < Binary64.overflow then some value else none

end Decimal

inductive Number where
  | finite (negative : Bool) (magnitude : Decimal)
  | infinite (negative : Bool)
  | undefined
deriving DecidableEq

namespace Number

/-- A number that fills the text. The names are read in either case. -/
def read? (cs : List Char) : Option Number :=
  let (negative, cs) := match cs with
    | '-' :: rest => (true, rest)
    | '+' :: rest => (false, rest)
    | _ => (false, cs)
  let name := cs.map Char.toLower
  if name = "inf".toList ∨ name = "infinity".toList then some (.infinite negative)
  else if name = "nan".toList then some .undefined
  else (Decimal.read? cs).map (.finite negative)

end Number

end Choreo
