import Choreo.Settings
import Choreo.Toml.Document

/-!
# Settings files

Settings are kept in a TOML document with a table for playback and one for the host. A key that is
missing leaves its setting as it is, and keys that nobody knows are passed over. A table may also be
given as an array of its values in the order of the settings. A value of the wrong kind, or a number
that is negative, makes the whole file unreadable.
-/

namespace Choreo

/-- Where a table takes its values from: by position and by name. -/
abbrev FieldSource := Nat → String → Option Toml.Value

namespace FieldSource

/-- The values of a section. Values without parts are no section, except that a date has none of the
settings in it. -/
def ofSection? : Toml.Value → Option FieldSource
  | .table _ entries => some fun _ name => Toml.Entries.get? entries name
  | .array elements => some fun position _ => elements[position]?
  | .tables elements => some fun position _ => (elements[position]?).map (.table .heading)
  | .datetime => some fun _ _ => none
  | _ => none

/-- The setting in one place, or the one to start from if there is nothing in that place. -/
def setting {α : Type} (source : FieldSource) (position : Nat) (name : String)
    (decode : Toml.Value → Option α) (default : α) : Option α :=
  match source position name with
  | none => some default
  | some value => decode value

end FieldSource

namespace Toml.Value

def count? : Value → Option Nat
  | .integer n => if 0 ≤ n then some n.toNat else none
  | _ => none

def flag? : Value → Option Bool
  | .boolean b => some b
  | _ => none

def text? : Value → Option String
  | .string s => some s
  | _ => none

def texts? : Value → Option (List String)
  | .array elements => elements.mapM text?
  | _ => none

end Toml.Value

open Toml.Value in
def PlaybackSettings.ofFields? (source : FieldSource) : Option PlaybackSettings := do
  let d : PlaybackSettings := {}
  return {
    tick := ← source.setting 0 "tick_ms" count? d.tick
    fastTick := ← source.setting 1 "fast_tick_ms" count? d.fastTick
    autoping := ← source.setting 2 "autoping_ms" count? d.autoping
    busyGrace := ← source.setting 3 "busy_grace_ms" count? d.busyGrace
    mareGrace := ← source.setting 4 "mare_grace_ms" count? d.mareGrace
    ignoreLooping := ← source.setting 5 "ignore_looping" flag? d.ignoreLooping
    ignoreCountdown := ← source.setting 6 "ignore_autocountdown" flag? d.ignoreCountdown
    drainTick := ← source.setting 7 "drain_tick_ms" count? d.drainTick }

open Toml.Value in
def HostCommands.ofFields? (source : FieldSource) : Option HostCommands := do
  let d : HostCommands := {}
  return {
    busyOn := ← source.setting 0 "busy_on" text? d.busyOn
    busyOff := ← source.setting 1 "busy_off" text? d.busyOff
    mareOff := ← source.setting 2 "mare_off" text? d.mareOff
    mareOn := ← source.setting 3 "mare_on" text? d.mareOn
    countdown := ← source.setting 4 "countdown" text? d.countdown
    animationCancel := ← source.setting 5 "animation_cancel" texts? d.animationCancel
    decoration := ← source.setting 6 "bussy_decoration" text? d.decoration }

def Settings.ofEntries? (entries : Toml.Entries) : Option Settings := do
  let playback ← match entries.get? "playback" with
    | none => some {}
    | some value => (FieldSource.ofSection? value).bind PlaybackSettings.ofFields?
  let host ← match entries.get? "host" with
    | none => some {}
    | some value => (FieldSource.ofSection? value).bind HostCommands.ofFields?
  return { playback, host }

inductive SettingsError where
  | unreadable (path : String)
  | invalid (path : String)
deriving DecidableEq

def SettingsError.message : SettingsError → String
  | unreadable path => "Failed to read config file: " ++ path
  | invalid path => "Failed to parse config file: " ++ path

def Settings.load (path : String) (bytes : Option ByteArray) : Except SettingsError Settings :=
  match bytes.bind String.fromUTF8? with
  | none => .error (.unreadable path)
  | some text =>
    match (Toml.read? text).bind Settings.ofEntries? with
    | none => .error (.invalid path)
    | some settings => .ok settings

end Choreo
