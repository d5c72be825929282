import Choreo.Script.Source
import Choreo.Timeline

/-!
# Sessions

A session is one run of a program. It begins playing, may be paused and resumed, and ends by being
cancelled or by running past its last command. Seeking is only asked for: whoever plays the session
goes to the wanted command when it is safe to do so. What a session refuses leaves no trace.
-/

namespace Choreo

inductive Status where
  | stopped
  | playing
  | paused
  | cancelled
deriving DecidableEq

structure Session where
  script : ScriptId
  filter : Option String
  program : Program
  status : Status := .stopped
  /-- Whether playing has to stop. -/
  cancelled : Bool := false
  /-- The position of the command to play next. -/
  index : Nat := 0
  /-- The position of the command that is played. -/
  current : Option Nat := none
  /-- The position of the region that is played. -/
  region : Option Nat := none
  /-- The position of the command that was asked for last. -/
  pendingSeek : Option Nat := none
  /-- How often a command was asked for. -/
  epoch : Nat := 0
  scriptTime : Timeline := {}
  regionTime : Timeline := {}
  commandTime : Timeline := {}
  countdown : Option Countdown := none
  /-- How much the next wait is shortened. -/
  pingOffset : Duration := .zero
deriving DecidableEq

namespace Session

def create (script : ScriptId) (filter : Option String) (program : Program) : Session :=
  { script, filter, program, scriptTime := { total := program.totalWait } }

def command? (s : Session) : Option Command := s.current.bind (s.program.commands[·]?)

/-! ## What others may ask for -/

def pause? (s : Session) (now : Instant) : Option Session :=
  if s.status = .playing then
    some { s with
      status := .paused
      scriptTime := s.scriptTime.pause now
      regionTime := s.regionTime.pause now
      commandTime := s.commandTime.pause now }
  else none

def resume? (s : Session) (now : Instant) : Option Session :=
  if s.status = .paused then
    some { s with
      status := .playing
      scriptTime := s.scriptTime.resume now
      regionTime := s.regionTime.resume now
      commandTime := s.commandTime.resume now }
  else none

def cancel? (s : Session) : Option Session :=
  if s.status = .cancelled then none else some { s with status := .cancelled, cancelled := true }

def seek? (s : Session) (line : Nat) : Option Session :=
  match s.program.positionOfLine? line with
  | none => none
  | some target =>
    if s.status = .cancelled then none
    else some { s with pendingSeek := some target, epoch := s.epoch + 1 }

section Granted

variable {s t : Session} {now : Instant} {line : Nat}

theorem eq_of_pause? (hpause : s.pause? now = some t) :
    s.status = .playing ∧ t = { s with
      status := .paused
      scriptTime := s.scriptTime.pause now
      regionTime := s.regionTime.pause now
      commandTime := s.commandTime.pause now } := by
  unfold pause? at hpause
  split at hpause
  · next hplaying => exact ⟨hplaying, (Option.some.inj hpause).symm⟩
  · cases hpause

theorem eq_of_resume? (hresume : s.resume? now = some t) :
    s.status = .paused ∧ t = { s with
      status := .playing
      scriptTime := s.scriptTime.resume now
      regionTime := s.regionTime.resume now
      commandTime := s.commandTime.resume now } := by
  unfold resume? at hresume
  split at hresume
  · next hpaused => exact ⟨hpaused, (Option.some.inj hresume).symm⟩
  · cases hresume

theorem eq_of_seek? (hseek : s.seek? line = some t) :
    ∃ target, s.program.positionOfLine? line = some target ∧ s.status ≠ .cancelled ∧
      t = { s with pendingSeek := some target, epoch := s.epoch + 1 } := by
  unfold seek? at hseek
  split at hseek
  · cases hseek
  · next target htarget =>
    split at hseek
    · cases hseek
    · next hlive => exact ⟨target, htarget, hlive, (Option.some.inj hseek).symm⟩

/-- Whether it is granted or not, a session is cancelled after it was to be cancelled. -/
theorem cancel?_getD (s : Session) :
    ∃ cancelled, s.cancel?.getD s = { s with status := .cancelled, cancelled } ∧
      (s.status ≠ .cancelled → cancelled = true) := by
  unfold cancel?
  by_cases hcancelled : s.status = .cancelled
  · refine ⟨s.cancelled, ?_, fun hlive => absurd hcancelled hlive⟩
    rw [if_pos hcancelled, Option.getD_none, ← hcancelled]
  · refine ⟨true, ?_, fun _ => rfl⟩
    rw [if_neg hcancelled, Option.getD_some]

end Granted

/-! ## What playing does -/

def begin? (s : Session) (now : Instant) : Option Session :=
  if s.status = .stopped ∧ !s.cancelled then
    some { s with status := .playing, scriptTime := s.scriptTime.start now }
  else none

theorem eq_of_begin? {s t : Session} {now : Instant} (hbegin : s.begin? now = some t) :
    s.status = .stopped ∧ s.cancelled = false ∧
      t = { s with status := .playing, scriptTime := s.scriptTime.start now } := by
  unfold begin? at hbegin
  split at hbegin
  · next hstopped =>
    have hunset : s.cancelled = false := by simpa using hstopped.2
    exact ⟨hstopped.1, hunset, (Option.some.inj hbegin).symm⟩
  · cases hbegin

/-- Goes to the command that was asked for. Its region counts as entered anew. -/
def applySeek (s : Session) : Session :=
  match s.pendingSeek with
  | none => s
  | some target => { s with pendingSeek := none, index := target, region := none }

/-- Comes to a command, and tells whether that enters its region. -/
def enter (s : Session) (index : Nat) (c : Command) (now : Instant) : Session × Bool :=
  let s := { s with
    index, current := some index, commandTime := s.commandTime.restart c.wait now }
  if s.region = some c.region then (s, false)
  else
    let wait := match s.program.regions[c.region]? with
      | some region => region.wait
      | none => .zero
    ({ s with region := some c.region, regionTime := s.regionTime.restart wait now }, true)

def advance (s : Session) : Session := { s with index := s.index + 1 }

def restart (s : Session) (now : Instant) : Session :=
  { s with
    index := 0
    region := none
    scriptTime := s.scriptTime.restart s.program.totalWait now }

def finish (s : Session) : Session :=
  { s with
    current := none
    region := none
    regionTime := s.regionTime.clear
    commandTime := s.commandTime.clear
    status := if s.status = .cancelled then .cancelled else .stopped }

end Session

end Choreo
