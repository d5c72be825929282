import Choreo.Playback.State

/-!
# Controlling playback

Scripts are launched, and the sessions that play them are paused, resumed, sought through and
cancelled, by number or all those of one script. Numbers of sessions that are not active are of no
effect.
-/

namespace Choreo

inductive Start where
  /-- At the first command of the lines that a filter selects. -/
  | top (filter : Option String)
  /-- At the first command of a line, or at the top if the line has none. -/
  | line (number : Nat)
deriving DecidableEq

inductive LaunchError where
  | notAllowed
  | source (cause : SourceError)
deriving DecidableEq

def LaunchError.message : LaunchError → String
  | notAllowed => "playback is not allowed right now"
  | source cause => "failed to load script: " ++ cause.message

namespace Start

def filter? : Start → Option String
  | .top filter => filter
  | .line _ => none

def prepare (start : Start) (script : ScriptId) (lines : List String) : Session :=
  let session := Session.create script start.filter? (.compile lines start.filter?)
  match start with
  | .top _ => session
  | .line number => (session.seek? number).getD session

end Start

namespace Playback

def nextId (p : Playback) : SessionId := ⟨p.sessions.length + 1⟩

/-- Launches a script, if the host allows playback and the script can be read. -/
def launch (p : Playback) (script : Script) (start : Start) :
    Playback × Except LaunchError SessionId :=
  if p.allowed then
    match script.lines.2 with
    | .error cause => (p, .error (.source cause))
    | .ok lines =>
      let id := p.nextId
      ({ p with
          sessions := p.sessions ++ [start.prepare script.id lines]
          active := p.active ++ [id]
          ready := p.ready ++ [.play id { lastCheck := p.now }] }, .ok id)
  else (p, .error .notAllowed)

/-- Changes a session that is at hand, unless it refuses. -/
def changeFound (p : Playback) (id : SessionId) (act : Session → Option Session) :
    Playback × Bool :=
  match (p.session? id).bind act with
  | none => (p, false)
  | some s => (p.setSession id s, true)

/-- Looks for a session among those that are active, and changes it. -/
def change (p : Playback) (id : SessionId) (act : Session → Option Session) : Playback × Bool :=
  if p.isActive id then p.changeFound id act else (p, false)

def pause (p : Playback) (id : SessionId) : Playback × Bool := p.change id (·.pause? p.now)

def resume (p : Playback) (id : SessionId) : Playback × Bool := p.change id (·.resume? p.now)

def togglePause (p : Playback) (id : SessionId) : Playback × Bool :=
  match p.pause id with
  | (p, true) => (p, true)
  | (p, false) => p.resume id

def seek (p : Playback) (id : SessionId) (line : Nat) : Playback × Bool :=
  p.change id (·.seek? line)

def cancel (p : Playback) (id : SessionId) : Playback × Bool :=
  if p.isActive id then
    let p := { p with active := p.active.filter (· ≠ id) }
    match (p.session? id).bind Session.cancel? with
    | none => (p, true)
    | some s => (p.setSession id s, true)
  else (p, false)

/-- Does something to one session after another, and counts for how many of them it worked. -/
def forEach (act : Playback → SessionId → Playback × Bool) (p : Playback) :
    List SessionId → Playback × Nat
  | [] => (p, 0)
  | id :: ids =>
    let (p, done) := act p id
    let (p, count) := forEach act p ids
    (p, count + if done then 1 else 0)

def findByScript (p : Playback) (script : ScriptId) : List SessionId :=
  p.active.filter fun id => (p.session? id).any (·.script = script)

def cancelAll (p : Playback) : Playback × Nat := p.forEach cancel p.active

/-- Changes the sessions of a script, all of them found first and changed as of the same instant. -/
def changeScript (p : Playback) (script : ScriptId) (act : Instant → Session → Option Session) :
    Playback × Nat :=
  let now := p.now
  p.forEach (fun p id => p.changeFound id (act now)) (p.findByScript script)

def pauseScript (p : Playback) (script : ScriptId) : Playback × Nat :=
  p.changeScript script fun now s => s.pause? now

def resumeScript (p : Playback) (script : ScriptId) : Playback × Nat :=
  p.changeScript script fun now s => s.resume? now

/-- Cancels the sessions of a script, which are looked for again by their numbers. -/
def cancelScript (p : Playback) (script : ScriptId) : Playback × Nat :=
  p.forEach cancel (p.findByScript script)

/-- Keeps an eye on a session, so that it is known after it has ended. -/
def hold (p : Playback) (id : SessionId) : Playback := { p with held := id :: p.held }

/-- Takes the eye off a session, and tells whether someone had one on it. -/
def releaseHold (p : Playback) (id : SessionId) : Playback × Bool :=
  ({ p with held := p.held.filter (· ≠ id) }, p.held.contains id)

def allow (p : Playback) (allowed : Bool) : Playback := { p with allowed }

def setRate (p : Playback) (rate : TickRate) : Playback :=
  { p with policy := { p.policy with rate } }

def setIgnoreLooping (p : Playback) (ignore : Bool) : Playback :=
  { p with policy := { p.policy with ignoreLooping := ignore } }

def setIgnoreCountdown (p : Playback) (ignore : Bool) : Playback :=
  { p with policy := { p.policy with ignoreCountdown := ignore } }

def arm (p : Playback) (id : SessionId) (flag : AutoFlag) : Playback :=
  { p with policy := p.policy.arm flag id }

def disarmAll (p : Playback) : Playback := { p with policy := p.policy.disarmAll }

end Playback

end Choreo
