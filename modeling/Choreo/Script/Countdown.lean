import Choreo.Script.Region
import Choreo.Text.Blank

/-!
# Countdowns

A countdown announces the end of a region: it is sent so many seconds before the end as it counts,
less the time that a player needs to react. Only a long region with an eligible one after it gets
a countdown.
-/

namespace Choreo

inductive Countdown where
  | start
  | pulse
  | off
deriving DecidableEq

namespace Countdown

/-- Countdowns are sent for regions longer than this. -/
def minRegion : Duration := .ofSeconds 9

def reaction : Duration := .ofMillis 20

/-- Reads a mode in either case of letters. Whatever is neither `start` nor `off` means `pulse`. -/
def read (argument : List Char) : Countdown :=
  let word := (Text.trim argument).map Char.toLower
  if word = "start".toList then .start
  else if word = "off".toList then .off
  else .pulse

def lead? : Countdown → Option Duration
  | .start => some (.ofSeconds 5)
  | .pulse => some (.ofSeconds 6)
  | .off => none

/-- The time from entering a region to sending its countdown, if it gets one. -/
def offset? (regions : List Region) (index : Nat) (mode : Countdown) : Option Duration :=
  match mode.lead?, regions[index]? with
  | some lead, some region =>
    if region.eligible ∧ minRegion < region.wait ∧
        (regions.drop (index + 1)).any Region.eligible then
      some (region.wait - (lead - reaction))
    else none
  | _, _ => none

end Countdown

end Choreo
