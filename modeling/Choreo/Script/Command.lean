import Choreo.Script.Directive
import Choreo.Seconds

/-!
# Commands

A command is one line of a script that the player acts on. It can be written as a line again.
-/

namespace Choreo

structure Command where
  /-- The line without its comment and its wait tokens. -/
  text : String
  /-- The number of the line, counted from 1. -/
  line : Nat
  /-- The position of its region. -/
  region : Nat
  wait : Duration
  directive : Directive
deriving DecidableEq

namespace Command

/-- The wait of a line that gives none while no default is set. -/
def minWait : Duration := .ofMillis 10

/-- The command as a line, its wait written as a tag. -/
def sourceLine (c : Command) : String :=
  let tag := "<wait." ++ c.wait.secondsText ++ ">"
  if c.text = "" then tag else c.text ++ " " ++ tag

end Command

end Choreo
