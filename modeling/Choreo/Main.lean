import Choreo.CommandLine

/-!
# The program

Reads the files, sleeps until the next thing happens, and writes what was sent to the console.
-/

namespace Choreo.Console

/-- Enough for everything that happens in one moment. -/
def momentFuel : Nat := 1000000000

def longestSleep : Nat := 3600000

def readFile (path : String) : IO (Option ByteArray) :=
  try
    return some (← IO.FS.readBinFile path)
  catch _ => return none

def showSent (p : Playback) (shown : Nat) : IO Nat := do
  let sent := p.sent
  for (time, envelope) in sent.drop shown do
    IO.println (CommandLine.consoleLine time envelope.command)
  (← IO.getStdout).flush
  return sent.length

/-- Plays in real time until `done`, and no longer than `limit` milliseconds. -/
partial def playUntil (done : Playback → Bool) (limit : Nat) (p : Playback) (shown : Nat) :
    IO (Playback × Nat) := do
  let p := p.settle momentFuel
  let shown ← showSent p shown
  if done p || limit ≤ p.clock then return (p, shown)
  let wake := min (p.clock + longestSleep) (min limit (p.nextWake?.getD limit))
  IO.sleep (wake - p.clock).toUInt32
  playUntil done limit (p.advance momentFuel (wake - p.clock)) shown

def playRequest (request : CommandLine.Request) : IO UInt32 := do
  let script ← readFile request.script
  let config ← match request.config with
    | none => pure none
    | some path => readFile path
  let files (path : String) : Option ByteArray :=
    if some path = request.config then config else script
  match request.launch files with
  | .error failure =>
    IO.eprintln ("Error: " ++ failure.message)
    return 1
  | .ok p =>
    let (p, shown) ← playUntil Playback.isIdle CommandLine.farAway p 0
    let _ ← playUntil (fun _ => false) (p.clock + CommandLine.stay p) p shown
    return 0

end Choreo.Console

open Choreo in
def main (args : List String) : IO UInt32 :=
  match CommandLine.read args with
  | .error .usage => do
    IO.eprintln CommandLine.usage
    return 2
  | .error .help => do
    IO.println CommandLine.usage
    return 0
  | .error .version => do
    IO.println "choreo 0.1.0"
    return 0
  | .ok request => Console.playRequest request
