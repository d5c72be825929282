import Choreo.Playback.Playhead

/-!
# The state of playback

All sessions share one clock of whole milliseconds. Tasks that may go on stand in a queue, and those
that sleep have a time to wake up. A task that goes to sleep for some time wakes up after as many
milliseconds as cover it, or after thirty years if the clock cannot tell a time so far away.
Everything that is sent, and the milestones of every session, are written into a journal.
-/

namespace Choreo

/-- The seconds that the clock can look ahead. This is an assumption about the timer that playback
sleeps by: it counts seconds in 64 bits with a sign, from when the machine was started, and no more
than `775807` of them, some nine days, are taken to be over when playback begins. -/
def farthestSecond : Nat := 9223372036854000000

/-- What the timer makes of a time that it cannot tell: thirty years of 365 days, in milliseconds. -/
def thirtyYears : Nat := 946080000000

def Duration.sleepMillis (d : Duration) : Nat :=
  if d.seconds < farthestSecond then d.ceilMillis else thirtyYears

inductive Task where
  | play (id : SessionId) (head : Playhead)
  /-- Sends a command so many times more. -/
  | pad (id : SessionId) (payload : String) (left : Nat)
  /-- Sends a countdown that was planned in an epoch of its session. -/
  | countdown (id : SessionId) (epoch : Nat) (command : String)
  | release (ticket : Ticket) (command : String)
deriving DecidableEq

structure Sleeper where
  wake : Nat
  task : Task
deriving DecidableEq

inductive Event where
  | sent (envelope : Envelope)
  | reached (id : SessionId) (milestone : Milestone)
deriving DecidableEq

structure Entry where
  time : Nat
  event : Event
deriving DecidableEq

structure Playback where
  settings : Settings := {}
  policy : Policy := {}
  allowed : Bool := true
  /-- Milliseconds since the start. -/
  clock : Nat := 0
  /-- Every session that was ever launched, in order. -/
  sessions : List Session := []
  /-- The sessions that play or are paused, in order. -/
  active : List SessionId := []
  /-- The sessions that someone else keeps an eye on. -/
  held : List SessionId := []
  /-- The tasks that may go on, the next one first. -/
  ready : List Task := []
  /-- The tasks that sleep, in the order in which they went to sleep. -/
  sleepers : List Sleeper := []
  /-- What happened, the latest first. -/
  journal : List Entry := []
deriving DecidableEq

namespace Playback

def start (settings : Settings) : Playback :=
  { settings, policy := .ofSettings settings.playback }

def now (p : Playback) : Instant := p.clock * 1000000

/-- The session with a number. Numbers start at 1. -/
def session? (p : Playback) (id : SessionId) : Option Session :=
  match id.number with
  | 0 => none
  | n + 1 => p.sessions[n]?

def setSession (p : Playback) (id : SessionId) (s : Session) : Playback :=
  match id.number with
  | 0 => p
  | n + 1 => { p with sessions := p.sessions.set n s }

def isActive (p : Playback) (id : SessionId) : Bool := p.active.contains id

def isIdle (p : Playback) : Bool := p.active.isEmpty

/-- The session with a number, unless everyone has forgotten it. -/
def known? (p : Playback) (id : SessionId) : Option Session :=
  if p.isActive id || p.held.contains id then p.session? id else none

def surroundings (p : Playback) : Surroundings :=
  { now := p.now
    allowed := p.allowed
    tick := p.policy.tick
    ignoreLooping := p.policy.ignoreLooping
    settings := p.settings }

def record (p : Playback) (event : Event) : Playback :=
  { p with journal := ⟨p.clock, event⟩ :: p.journal }

def enqueue (p : Playback) (task : Task) : Playback := { p with ready := p.ready ++ [task] }

def sleep (p : Playback) (time : Duration) (task : Task) : Playback :=
  { p with sleepers := p.sleepers ++ [⟨p.clock + time.sleepMillis, task⟩] }

/-- Sends a command that belongs to no session. -/
def send (p : Playback) (command : String) : Playback :=
  p.record (.sent ⟨command, .queue, none⟩)

/-- Sends a command on behalf of a session, unless that was cancelled. -/
def sendFrom (p : Playback) (id : SessionId) (command : String) (mode : DispatchMode) :
    Playback :=
  match p.session? id with
  | none => p
  | some s => if s.status = .cancelled then p else p.record (.sent ⟨command, mode, some id⟩)

def perform (id : SessionId) (p : Playback) : Effect → Playback
  | .send command mode => p.sendFrom id command mode
  | .arm flag => { p with policy := p.policy.arm flag id }
  | .disarmAll => { p with policy := p.policy.disarmAll }
  | .pad padding => p.enqueue (.pad id padding.payload padding.count)
  | .countdown lead offset =>
    match p.session? id with
    | none => p
    | some s =>
      p.sleep offset (.countdown id s.epoch (p.settings.host.countdownFor lead))
  | .reach milestone => p.record (.reached id milestone)

/-- Releases a flag after a time, if the session owns it. -/
def planRelease (p : Playback) (id : SessionId) (flag : AutoFlag) (grace : Duration)
    (command : String) : Playback :=
  match p.policy.ticket? flag id with
  | none => p
  | some ticket => p.sleep grace (.release ticket command)

/-- A session has ended. The flags that it owns are released after a time of grace. -/
def retire (p : Playback) (id : SessionId) : Playback :=
  let p := { p with active := p.active.filter (· ≠ id) }
  let p := p.planRelease id .busy p.settings.playback.busyGraceTime p.settings.host.busyOff
  p.planRelease id .mare p.settings.playback.mareGraceTime p.settings.host.mareOn

def resumeLater (p : Playback) (id : SessionId) : Next → Playback
  | .again head => { p with ready := .play id head :: p.ready }
  | .yield head => p.enqueue (.play id head)
  | .sleep time head => p.sleep time (.play id head)
  | .ended => p.retire id

def runPlayhead (p : Playback) (id : SessionId) (head : Playhead) : Playback :=
  match p.session? id with
  | none => p
  | some s =>
    let move := head.step p.surroundings s
    (move.effects.foldl (perform id) (p.setSession id move.session)).resumeLater id move.next

/-- One repeat of a padding. It stops when its session is cancelled or forgotten. -/
def runPad (p : Playback) (id : SessionId) (payload : String) (left : Nat) : Playback :=
  match left with
  | 0 => p
  | left + 1 =>
    match p.known? id with
    | none => p
    | some s =>
      if s.status = .cancelled then p
      else (p.sendFrom id payload .noQueue).sleep Padding.spacing (.pad id payload left)

/-- Sends a countdown, if its session plays and nothing else was asked of it since. -/
def runCountdown (p : Playback) (id : SessionId) (epoch : Nat) (command : String) : Playback :=
  if p.isActive id then
    match p.session? id with
    | none => p
    | some s =>
      if s.status = .playing ∧ s.epoch = epoch ∧ !p.policy.ignoreCountdown then
        p.sendFrom id command .queue
      else p
  else p

def runRelease (p : Playback) (ticket : Ticket) (command : String) : Playback :=
  let (policy, released) := p.policy.release ticket
  let p := { p with policy }
  if released then p.send command else p

def runTask (p : Playback) : Task → Playback
  | .play id head => p.runPlayhead id head
  | .pad id payload left => p.runPad id payload left
  | .countdown id epoch command => p.runCountdown id epoch command
  | .release ticket command => p.runRelease ticket command

def nextWake? (p : Playback) : Option Nat := (p.sleepers.map Sleeper.wake).min?

/-- Goes on to a millisecond and wakes up the tasks that are due in it. -/
def wakeAt (p : Playback) (time : Nat) : Playback :=
  { p with
    clock := max p.clock time
    ready := p.ready ++ (p.sleepers.filter (·.wake ≤ time)).map Sleeper.task
    sleepers := p.sleepers.filter (time < ·.wake) }

/-- The next thing to happen up to a millisecond: a task that may go on does so, and when there is
none the clock goes on to the next task that wakes up. -/
def next? (p : Playback) (limit : Nat) : Option Playback :=
  match p.ready with
  | task :: rest => some ({ p with ready := rest }.runTask task)
  | [] =>
    match p.nextWake? with
    | some wake => if wake ≤ limit then some (p.wakeAt wake) else none
    | none => none

/-- Lets at most `fuel` things happen, up to a millisecond that may depend on how things go. -/
def run (limit : Playback → Nat) : Nat → Playback → Playback
  | 0, p => p
  | fuel + 1, p =>
    match p.next? (limit p) with
    | none => p
    | some p => run limit fuel p

def advance (fuel : Nat) (p : Playback) (millis : Nat) : Playback :=
  let target := p.clock + millis
  let p := p.run (fun _ => target) fuel
  { p with clock := max p.clock target }

def settle (fuel : Nat) (p : Playback) : Playback := p.advance fuel 0

/-- Lets time pass until no session is left, but no more than some milliseconds. -/
def waitIdle (fuel : Nat) (p : Playback) (millis : Nat) : Playback :=
  let target := p.clock + millis
  let p := p.run (fun p => if p.isIdle then p.clock else target) fuel
  if p.isIdle then p else { p with clock := max p.clock target }

/-- What was sent, the oldest first, and when. -/
def sent (p : Playback) : List (Nat × Envelope) :=
  p.journal.reverse.filterMap fun entry =>
    match entry.event with
    | .sent envelope => some (entry.time, envelope)
    | .reached _ _ => none

end Playback

end Choreo
