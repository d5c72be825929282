import Choreo.Channel
import Choreo.Playback.Session
import Choreo.Policy

/-!
# Playheads

A playhead plays one session. It never sleeps longer than a tick: a wait is added to a budget of
time, and each time the playhead wakes up it takes from the budget what has really passed. Sleeping
too long on one command therefore shortens the wait of the next one.

One step of a playhead ends where it sleeps or lets others go first, and where it begins to look for a
command. In the latter case it goes on at once. A step sees its own session and its surroundings, and
what it does to anything else is a list of effects.
-/

namespace Choreo

inductive Stage where
  /-- It has not begun. -/
  | opening
  /-- It is about to look for the next command. -/
  | turn
  /-- It sleeps because the session was paused when it looked for a command. -/
  | rest
  /-- It sleeps for the wait of a command. -/
  | wait
  /-- It sleeps because the session was paused during a wait. -/
  | waitRest
  /-- It let others go first, having nothing to wait for. -/
  | pass
deriving DecidableEq

structure Playhead where
  stage : Stage := .opening
  /-- The nanoseconds that are still to be waited for. It is negative after sleeping too long. -/
  budget : Int := 0
  /-- When the budget was last brought up to date. -/
  lastCheck : Instant
deriving DecidableEq

structure Surroundings where
  now : Instant
  allowed : Bool
  tick : Duration
  ignoreLooping : Bool
  settings : Settings
deriving DecidableEq

inductive Milestone where
  | began
  /-- It went to the command that was asked for. -/
  | sought (index : Nat)
  | entered (region : Nat)
  | executed (index : Nat)
  | ended
deriving DecidableEq

inductive Effect where
  | send (command : String) (mode : DispatchMode)
  | arm (flag : AutoFlag)
  | disarmAll
  /-- Sends a command many times from now on. -/
  | pad (padding : Padding)
  /-- Sends a countdown after a time, unless something gets in its way. -/
  | countdown (lead offset : Duration)
  | reach (milestone : Milestone)
deriving DecidableEq

inductive Next where
  | again (head : Playhead)
  | yield (head : Playhead)
  | sleep (time : Duration) (head : Playhead)
  | ended
deriving DecidableEq

structure Move where
  session : Session
  effects : List Effect
  next : Next
deriving DecidableEq

namespace Session

/-- The session as it stops, if it was cancelled or the host does not allow playback any more. -/
def stopped? (s : Session) (allowed : Bool) : Option Session :=
  if s.cancelled then some s
  else if allowed then none
  else some (s.cancel?.getD s)

/-- What entering a region means for countdowns. Off the first command of the region a countdown
would come at the wrong time. -/
def countdownAtEntry (s : Session) (c : Command) : Session × List Effect :=
  match s.countdown with
  | none => (s, [])
  | some .off => ({ s with countdown := none }, [])
  | some mode =>
    match s.program.regions[c.region]? with
    | none => (s, [])
    | some region =>
      if c.line = region.startLine then
        match mode.lead?, Countdown.offset? s.program.regions c.region mode with
        | some lead, some offset => (s, [.countdown lead offset])
        | _, _ => (s, [])
      else (s, [])

def arrive (s : Session) (index : Nat) (c : Command) (now : Instant) : Session × List Effect :=
  let (s, entered) := s.enter index c now
  if entered then
    let (s, atEntry) := s.countdownAtEntry c
    (s, .reach (.entered c.region) :: atEntry)
  else (s, [])

def landing (s : Session) : List Effect :=
  match s.pendingSeek with
  | none => []
  | some target => [.reach (.sought target)]

def perform (s : Session) (settings : Settings) (c : Command) : Session × List Effect :=
  let host := settings.host
  match c.directive with
  | .dispatch => (s, [.send c.text .queue])
  | .hold | .microCancel | .loop => (s, [])
  | .busy decorated =>
    let decorations := if decorated then host.decorations else []
    (s, .arm .busy :: .send host.busyOn .queue :: decorations.map (.send · .noQueue))
  | .mare => (s, [.arm .mare, .send host.mareOff .queue])
  | .countdown mode => ({ s with countdown := some mode }, [])
  | .ping => ({ s with pingOffset := settings.playback.autopingTime }, [])
  | .animationCancel =>
    (s, host.animationCancel.map (.send · .noQueue) ++ [.send c.text .queue])
  | .pad padding => (s, [.pad padding])

end Session

namespace Playhead

/-- The largest budget that a playhead can count, `2 ^ 127 - 1` nanoseconds. -/
def maxBudget : Int := 170141183460469231731687303715884105727

def charge (h : Playhead) (wait : Duration) : Playhead :=
  { h with budget := min (h.budget + wait.nanos) maxBudget }

def settle (h : Playhead) (now : Instant) : Playhead :=
  { h with budget := h.budget - (now - h.lastCheck : Nat), lastCheck := now }

/-- The time to sleep while there is some budget: a tick or what is left of the budget, but less than
`2 ^ 64` nanoseconds. -/
def nap (h : Playhead) (tick : Duration) : Duration :=
  .ofNanos (min (min tick.nanos h.budget.toNat) 18446744073709551615)

def finish (s : Session) : Move := ⟨s.finish, [.reach .ended], .ended⟩

def turnOver (h : Playhead) (s : Session) (effects : List Effect) : Move :=
  ⟨s, effects, .again { h with stage := .turn }⟩

/-- The wait of a command, which others may cut into. -/
def beginWait (h : Playhead) (v : Surroundings) (s : Session) (effects : List Effect) : Move :=
  if 0 < h.budget then ⟨s, effects, .sleep (h.nap v.tick) { h with stage := .wait }⟩
  else ⟨s, effects, .yield { h with stage := .pass }⟩

def play (h : Playhead) (v : Surroundings) (s : Session) (index : Nat) (c : Command) : Move :=
  let (s, arrival) := s.arrive index c v.now
  if c.directive = .loop ∧ 1 < s.program.commands.length ∧ !v.ignoreLooping then
    h.turnOver (s.restart v.now) (arrival ++ [.reach (.executed index), .disarmAll])
  else
    let (s, deeds) := s.perform v.settings c
    let effects := arrival ++ .reach (.executed index) :: deeds
    if c.directive.skipsWait then h.turnOver s.advance effects
    else
      (h.charge (c.wait - s.pingOffset)).beginWait v { s with pingOffset := .zero } effects

/-- Going to the command that was asked for leaves nothing of the wait before it. -/
def land (h : Playhead) (now : Instant) (s : Session) : Playhead :=
  if s.pendingSeek.isSome then { h with budget := 0, lastCheck := now } else h

def turn (h : Playhead) (v : Surroundings) (s : Session) : Move :=
  match s.stopped? v.allowed with
  | some s => finish s
  | none =>
    if s.status = .paused then ⟨s, [], .sleep v.tick { h with stage := .rest }⟩
    else
      let h := h.land v.now s
      let landing := s.landing
      let s := s.applySeek
      let move := match s.program.commands[s.index]? with
        | none => finish s
        | some c => h.play v s s.index c
      { move with effects := landing ++ move.effects }

def look (h : Playhead) (v : Surroundings) (s : Session) : Move :=
  match s.stopped? v.allowed with
  | some s => finish s
  | none =>
    if s.pendingSeek.isSome then h.turnOver s []
    else if s.status = .paused then ⟨s, [], .sleep v.tick { h with stage := .waitRest }⟩
    else if 0 < h.budget then ⟨s, [], .sleep (h.nap v.tick) { h with stage := .wait }⟩
    else h.turnOver s.advance []

def step (h : Playhead) (v : Surroundings) (s : Session) : Move :=
  match h.stage with
  | .opening =>
    match s.begin? v.now with
    | none => finish s
    | some s => { h with lastCheck := v.now }.turnOver s [.reach .began]
  | .turn => h.turn v s
  | .rest => { h with lastCheck := v.now }.turnOver s []
  | .wait => (h.settle v.now).look v s
  | .waitRest => { h with lastCheck := v.now }.look v s
  | .pass => h.turnOver s.advance []

end Playhead

end Choreo
