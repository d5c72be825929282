import Choreo.Decimal
import Choreo.Text.Path

/-!
# TOML scalars

Numbers, truth values, dates and times are written without blanks, but for one that may stand
between a date and a time. Each of them has to fill its word.
-/

namespace Choreo.Toml

/-- Digits of a class, with underscores only between two of them, and the underscores left out. -/
def digits? (isDigit : Char → Bool) (cs : List Char) : Option (List Char) :=
  let parts := Text.splitAll '_' cs
  if parts.all fun part => part ≠ [] ∧ part.all isDigit then some parts.flatten else none

/-- The same for decimal digits without superfluous zeros in front. -/
def wholeDigits? (cs : List Char) : Option (List Char) :=
  match digits? Char.isDigit cs with
  | some ['0'] => some ['0']
  | some ('0' :: _) => none
  | digits => digits

def isHexDigit (c : Char) : Bool :=
  c.isDigit || ('a' ≤ c && c ≤ 'f') || ('A' ≤ c && c ≤ 'F')

def digitValue (c : Char) : Nat :=
  if c.isDigit then c.toNat - '0'.toNat else c.toLower.toNat - 'a'.toNat + 10

def ofDigits (base : Nat) (cs : List Char) : Nat :=
  cs.foldl (fun n c => base * n + digitValue c) 0

def splitSign : List Char → Bool × List Char
  | '-' :: cs => (true, cs)
  | '+' :: cs => (false, cs)
  | cs => (false, cs)

/-- A whole number in one of four bases that fits in 64 bits with a sign. -/
def integer? (cs : List Char) : Option Int :=
  let value := match cs with
    | '0' :: 'x' :: cs => (digits? isHexDigit cs).map fun ds => (ofDigits 16 ds : Int)
    | '0' :: 'o' :: cs =>
      (digits? (fun c => '0' ≤ c && c ≤ '7') cs).map fun ds => (ofDigits 8 ds : Int)
    | '0' :: 'b' :: cs =>
      (digits? (fun c => c = '0' || c = '1') cs).map fun ds => (ofDigits 2 ds : Int)
    | cs =>
      let (negative, cs) := splitSign cs
      (wholeDigits? cs).map fun ds => if negative then -(ofDigits 10 ds : Int) else ofDigits 10 ds
  match value with
  | some n => if -9223372036854775808 ≤ n ∧ n ≤ 9223372036854775807 then some n else none
  | none => none

/-- The power of ten of a number, from the letter on, written plainly. Nothing is no power. -/
def exponent? : List Char → Option (List Char)
  | [] => some []
  | c :: cs =>
    if c = 'e' ∨ c = 'E' then
      let (negative, cs) := splitSign cs
      (digits? Char.isDigit cs).map fun ds => 'e' :: (if negative then ['-'] else []) ++ ds
    else none

/-- A number with a point or a power of ten, written plainly and without its sign. -/
def decimal? (cs : List Char) : Option (List Char) :=
  let isPart (c : Char) : Bool := c.isDigit || c == '_'
  (wholeDigits? (cs.takeWhile isPart)).bind fun whole =>
    match cs.dropWhile isPart with
    | '.' :: cs =>
      (digits? Char.isDigit (cs.takeWhile isPart)).bind fun fraction =>
        (exponent? (cs.dropWhile isPart)).map fun power => whole ++ '.' :: fraction ++ power
    | [] => none
    | cs => (exponent? cs).map fun power => whole ++ power

/-- Whether the text is a number with a point or a power of ten, or one of the named ones. A positive
number may not be too large. -/
def isFloat (cs : List Char) : Bool :=
  let (negative, cs) := splitSign cs
  cs == "inf".toList || cs == "nan".toList ||
    match decimal? cs with
    | none => false
    | some plain => negative || ((Decimal.read? plain).bind Decimal.toBinary64?).isSome

/-- A number of two digits within bounds at the start of the text, and what follows it. -/
def twoDigits? (low high : Nat) : List Char → Option (Nat × List Char)
  | a :: b :: cs =>
    if a.isDigit && b.isDigit then
      let n := ofDigits 10 [a, b]
      if low ≤ n ∧ n ≤ high then some (n, cs) else none
    else none
  | _ => none

def skip? (isWanted : Char → Bool) : List Char → Option (List Char)
  | c :: cs => if isWanted c then some cs else none
  | [] => none

def daysIn (year month : Nat) : Nat :=
  if month = 2 then
    if year % 4 = 0 ∧ (year % 100 ≠ 0 ∨ year % 400 = 0) then 29 else 28
  else if month = 4 ∨ month = 6 ∨ month = 9 ∨ month = 11 then 30
  else 31

def afterDate? (cs : List Char) : Option (List Char) := do
  let year := cs.take 4
  if year.length ≠ 4 ∨ !year.all Char.isDigit then none
  let cs ← skip? (· == '-') (cs.drop 4)
  let (month, cs) ← twoDigits? 1 12 cs
  let cs ← skip? (· == '-') cs
  let (_, cs) ← twoDigits? 1 (daysIn (ofDigits 10 year) month) cs
  return cs

def afterTime? (cs : List Char) : Option (List Char) := do
  let (_, cs) ← twoDigits? 0 23 cs
  let cs ← skip? (· == ':') cs
  let (_, cs) ← twoDigits? 0 59 cs
  let cs ← skip? (· == ':') cs
  let (_, cs) ← twoDigits? 0 60 cs
  match cs with
  | '.' :: cs => if cs.takeWhile Char.isDigit = [] then none else return cs.dropWhile Char.isDigit
  | cs => return cs

/-- Whether the text is nothing, or the distance from the time of Greenwich. -/
def isOffset (cs : List Char) : Bool :=
  match cs with
  | [] => true
  | [c] => c == 'Z' || c == 'z'
  | c :: cs =>
    (c == '+' || c == '-') &&
      (do
        let (_, cs) ← twoDigits? 0 23 cs
        let cs ← skip? (· == ':') cs
        twoDigits? 0 59 cs : Option (Nat × List Char)).any fun (_, cs) => cs.isEmpty

def isDate (cs : List Char) : Bool := afterDate? cs == some []

def isZonedTime (cs : List Char) : Bool := (afterTime? cs).any isOffset

def isDatetime (cs : List Char) : Bool :=
  afterTime? cs == some [] ||
    match afterDate? cs with
    | none => false
    | some [] => true
    | some (c :: cs) => (c == 'T' || c == 't') && isZonedTime cs

end Choreo.Toml
