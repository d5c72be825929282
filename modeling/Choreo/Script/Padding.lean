import Choreo.Decimal
import Choreo.Duration
import Choreo.Text.Blank

/-!
# Padding

A padding sends one command many times beside the script. Its argument is an optional count and the
command. A count is kept between 1 and 100; without one the command is sent 40 times.
-/

namespace Choreo

/-- A command to be sent `count` times. -/
structure Padding where
  count : Nat
  payload : String
deriving DecidableEq

namespace Padding

def defaultCount : Nat := 40

def maxCount : Nat := 100

def spacing : Duration := .ofMillis 10

/-- A whole number that fits in 64 bits with a sign. -/
def readCount? (cs : List Char) : Option Int :=
  match Decimal.readInteger? cs with
  | some n => if -9223372036854775808 ≤ n ∧ n ≤ 9223372036854775807 then some n else none
  | none => none

def clampCount (n : Int) : Nat := (max 1 (min n maxCount)).toNat

/-- Reads an optional count and the command. Nothing but blanks gives no padding. A number that
stands alone, or one that is too large, belongs to the command. -/
def read? (argument : List Char) : Option Padding :=
  let args := Text.trim argument
  if args = [] then none
  else
    let whole : Padding := ⟨defaultCount, String.ofList args⟩
    match Text.splitWord args with
    | (_, []) => some whole
    | (first, _ :: rest) =>
      match readCount? first with
      | some n => some ⟨clampCount n, String.ofList (Text.trim rest)⟩
      | none => some whole

end Padding

end Choreo
