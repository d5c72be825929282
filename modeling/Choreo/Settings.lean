import Choreo.Duration

/-!
# Settings

The lengths of time that playback goes by, the overrides that a user can switch on, and the commands
that the host understands. Every setting has a value of its own to start from.
-/

namespace Choreo

/-- Times in milliseconds, and overrides. -/
structure PlaybackSettings where
  tick : Nat := 33
  fastTick : Nat := 16
  autoping : Nat := 100
  busyGrace : Nat := 2500
  mareGrace : Nat := 600000
  ignoreLooping : Bool := false
  ignoreCountdown : Bool := false
  drainTick : Nat := 16
deriving DecidableEq

namespace PlaybackSettings

def autopingTime (s : PlaybackSettings) : Duration := .ofMillis s.autoping

def busyGraceTime (s : PlaybackSettings) : Duration := .ofMillis s.busyGrace

def mareGraceTime (s : PlaybackSettings) : Duration := .ofMillis s.mareGrace

def drainTickTime (s : PlaybackSettings) : Duration := .ofMillis (max s.drainTick 1)

end PlaybackSettings

structure HostCommands where
  busyOn : String := "/busy on"
  busyOff : String := "/busy off"
  mareOff : String := "/mare off"
  mareOn : String := "/mare on"
  /-- The number of seconds follows it. -/
  countdown : String := "/countdown"
  animationCancel : List String := ["/gpose", "/gpose"]
  /-- A decoration, with `\x7bn\x7d` in place of its number. -/
  decoration : String := "/echo <se.\x7bn\x7d>"
deriving DecidableEq

namespace HostCommands

/-- The text with a number in each place that is held for it. -/
def fill (number : List Char) : List Char → List Char
  | '\x7b' :: 'n' :: '\x7d' :: rest => number ++ fill number rest
  | c :: rest => c :: fill number rest
  | [] => []

/-- The decorations, numbered from 1 to 12. -/
def decorations (h : HostCommands) : List String :=
  (List.range 12).map fun i =>
    String.ofList (fill (Nat.repr (i + 1)).toList h.decoration.toList)

def countdownFor (h : HostCommands) (lead : Duration) : String :=
  h.countdown ++ " " ++ Nat.repr lead.seconds

end HostCommands

structure Settings where
  playback : PlaybackSettings := {}
  host : HostCommands := {}
deriving DecidableEq

end Choreo
