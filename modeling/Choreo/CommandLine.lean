import Choreo.Playback.Control
import Choreo.SettingsFile

/-!
# The command line

One script is played from beginning to end, and every command that it sends is shown. Options have a
long name, most of them a short one too, and each may be given once. A value follows its option as
the next argument, after an equals sign, or right after a short name.
-/

namespace Choreo.CommandLine

inductive ValueOption where
  | script
  | region
  | line
  | config
deriving DecidableEq

inductive Stop where
  | usage
  | help
  | version
deriving DecidableEq

structure Arguments where
  script : Option String := none
  region : Option String := none
  line : Option Nat := none
  config : Option String := none
  ignoreLoop : Bool := false
  ignoreCountdown : Bool := false
  fastTick : Bool := false
  /-- How often more messages were asked for. -/
  verbosity : Nat := 0
deriving DecidableEq

/-- A whole number with an optional plus sign that fits in 64 bits. -/
def lineNumber? (text : List Char) : Option Nat :=
  let digits := match text with
    | '+' :: rest => rest
    | _ => text
  if digits = [] ∨ !digits.all Char.isDigit then none
  else
    let n := Decimal.ofDigits digits
    if n < 18446744073709551616 then some n else none

namespace Arguments

/-- Sets an option that was not set before. A path must not be empty. -/
def setValue (a : Arguments) (option : ValueOption) (value : List Char) : Except Stop Arguments :=
  let text := String.ofList value
  match option with
  | .script => if a.script.isSome ∨ value = [] then .error .usage else .ok { a with script := text }
  | .region => if a.region.isSome then .error .usage else .ok { a with region := text }
  | .config => if a.config.isSome ∨ value = [] then .error .usage else .ok { a with config := text }
  | .line =>
    match lineNumber? value with
    | none => .error .usage
    | some n => if a.line.isSome then .error .usage else .ok { a with line := n }

/-- Reads an option with a value, which may be still to come. -/
def readValue (a : Arguments) (option : ValueOption) (attached : Option (List Char)) :
    Except Stop (Arguments × Option ValueOption) :=
  match attached with
  | none => .ok (a, some option)
  | some value => (a.setValue option value).map fun a => (a, none)

/-- Reads an option by its long name and, if it takes a value that is still to come, tells which. -/
def readLong (a : Arguments) (text : List Char) : Except Stop (Arguments × Option ValueOption) :=
  let name := String.ofList (text.takeWhile (· ≠ '='))
  let attached := match text.dropWhile (· ≠ '=') with
    | [] => none
    | _ :: value => some value
  match name with
  | "script" => a.readValue .script attached
  | "region" => a.readValue .region attached
  | "line" => a.readValue .line attached
  | "config" => a.readValue .config attached
  | _ =>
    if attached.isSome then .error .usage
    else match name with
      | "ignore-loop" =>
        if a.ignoreLoop then .error .usage else .ok ({ a with ignoreLoop := true }, none)
      | "ignore-countdown" =>
        if a.ignoreCountdown then .error .usage else .ok ({ a with ignoreCountdown := true }, none)
      | "fast-tick" =>
        if a.fastTick then .error .usage else .ok ({ a with fastTick := true }, none)
      | "verbose" => .ok ({ a with verbosity := a.verbosity + 1 }, none)
      | "help" => .error .help
      | "version" => .error .version
      | _ => .error .usage

/-- Reads options by their short names. The first one that takes a value takes what follows it. -/
def readShort (a : Arguments) : List Char → Except Stop (Arguments × Option ValueOption)
  | [] => .ok (a, none)
  | c :: rest =>
    let attached := match rest with
      | [] => none
      | '=' :: value => some value
      | value => some value
    match c with
    | 's' => a.readValue .script attached
    | 'r' => a.readValue .region attached
    | 'l' => a.readValue .line attached
    | 'c' => a.readValue .config attached
    | 'v' => { a with verbosity := a.verbosity + 1 }.readShort rest
    | 'h' => .error .help
    | 'V' => .error .version
    | _ => .error .usage

def readOption (a : Arguments) : List Char → Except Stop (Arguments × Option ValueOption)
  | '-' :: '-' :: name => a.readLong name
  | '-' :: c :: names => a.readShort (c :: names)
  | _ => .error .usage

/-- Whether an argument is taken for an option, so that it cannot be the value of one. -/
def looksLikeOption : List Char → Bool
  | '-' :: _ :: _ => true
  | _ => false

def readAll (a : Arguments) : List String → Except Stop Arguments
  | [] => .ok a
  | first :: rest =>
    if first = "--" then if rest.isEmpty then .ok a else .error .usage
    else match a.readOption first.toList with
      | .error stop => .error stop
      | .ok (a, none) => a.readAll rest
      | .ok (a, some option) =>
        match rest with
        | [] => .error .usage
        | value :: rest =>
          if looksLikeOption value.toList then .error .usage
          else match a.setValue option value.toList with
            | .error stop => .error stop
            | .ok a => a.readAll rest

end Arguments

structure Request where
  script : String
  start : Start
  config : Option String
  ignoreLoop : Bool
  ignoreCountdown : Bool
  fastTick : Bool
deriving DecidableEq

/-- Reads a command line. A script must be given, and not both a region and a line. -/
def read (args : List String) : Except Stop Request := do
  let a ← Arguments.readAll {} args
  match a.script, a.region, a.line with
  | none, _, _ => .error .usage
  | some _, some _, some _ => .error .usage
  | some script, region, line =>
    return {
      script
      start := match line with
        | some n => .line n
        | none => .top region
      config := a.config
      ignoreLoop := a.ignoreLoop
      ignoreCountdown := a.ignoreCountdown
      fastTick := a.fastTick }

inductive Failure where
  | settings (cause : SettingsError)
  | script (path : String) (cause : LaunchError)
deriving DecidableEq

def Failure.message : Failure → String
  | settings cause => cause.message
  | script path _ => "Failed to start script: " ++ path

def Request.prepare (r : Request) (settings : Settings) : Playback :=
  let p := Playback.start settings
  let p := if r.ignoreLoop then p.setIgnoreLooping true else p
  let p := if r.ignoreCountdown then p.setIgnoreCountdown true else p
  if r.fastTick then p.setRate .fast else p

def Request.launch (r : Request) (files : String → Option ByteArray) :
    Except Failure Playback :=
  let settings : Except SettingsError Settings := match r.config with
    | none => .ok {}
    | some path => Settings.load path (files path)
  match settings with
  | .error cause => .error (.settings cause)
  | .ok settings =>
    match (r.prepare settings).launch (.ofFile r.script (files r.script)) r.start with
    | (_, .error cause) => .error (.script r.script cause)
    | (p, .ok _) => .ok p

/-- How long the program stays after the last session has ended: until a busy player is released,
and long enough for the host to be shown what was sent. -/
def stay (p : Playback) : Nat :=
  let settings := p.settings.playback
  (if p.policy.isArmed .busy then settings.busyGrace else 0) + max settings.drainTick 1

structure Outcome where
  code : Nat
  commands : List String := []
  failure : Option String := none
deriving DecidableEq

def farAway : Nat := 18446744073709551616

def playOut (fuel : Nat) (p : Playback) : Playback :=
  let p := p.waitIdle fuel farAway
  p.advance fuel (stay p)

def perform (fuel : Nat) (files : String → Option ByteArray) (args : List String) : Outcome :=
  match read args with
  | .error .usage => { code := 2 }
  | .error .help => { code := 0 }
  | .error .version => { code := 0 }
  | .ok request =>
    match request.launch files with
    | .error failure => { code := 1, failure := some failure.message }
    | .ok p => { code := 0, commands := (playOut fuel p).sent.map (·.2.command) }

/-- A command as the console shows it, with the seconds since the start. -/
def consoleLine (millis : Nat) (command : String) : String :=
  let time := Nat.repr (millis / 1000) ++ "." ++ Duration.padded 3 (millis % 1000)
  "[" ++ String.ofList (List.replicate (9 - time.length) ' ') ++ time ++ "s] " ++ command

def usage : String :=
  "usage: choreo --script PATH [--region NAME | --line NUMBER] [--config PATH] [--ignore-loop] " ++
    "[--ignore-countdown] [--fast-tick] [--verbose]"

end Choreo.CommandLine
