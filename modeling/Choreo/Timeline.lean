import Choreo.Seconds

/-!
# Timelines

A timeline has a length and, once started, knows how much of it was played. Time spent in a pause is
not played: progress stands still until the pause ends and goes on from there. The clock is an
argument of every operation.
-/

namespace Choreo

structure Timeline where
  total : Duration := .zero
  startedAt : Option Instant := none
  pausedAt : Option Instant := none
  /-- The time spent in pauses that are over. -/
  pausedFor : Duration := .zero
deriving DecidableEq

structure Snapshot where
  total : Duration
  elapsed : Duration
  remaining : Duration
  /-- The part that was played, a binary value between 0 and 1. -/
  progress : Rat
  paused : Bool
deriving DecidableEq

namespace Timeline

/-- Starts from the beginning, whatever was played before. -/
def start (t : Timeline) (now : Instant) : Timeline :=
  { t with startedAt := some now, pausedAt := none, pausedFor := .zero }

def restart (t : Timeline) (total : Duration) (now : Instant) : Timeline :=
  { t with total }.start now

/-- Goes back to not being started. The length stays. -/
def clear (t : Timeline) : Timeline :=
  { t with startedAt := none, pausedAt := none, pausedFor := .zero }

def pause (t : Timeline) (now : Instant) : Timeline :=
  if t.startedAt.isSome ∧ t.pausedAt.isNone then { t with pausedAt := some now } else t

def resume (t : Timeline) (now : Instant) : Timeline :=
  match t.pausedAt with
  | none => t
  | some pausedAt =>
    { t with pausedAt := none, pausedFor := t.pausedFor + Duration.between pausedAt now }

def isStarted (t : Timeline) : Bool := t.startedAt.isSome

def isPaused (t : Timeline) : Bool := t.pausedAt.isSome

def elapsed (t : Timeline) (now : Instant) : Duration :=
  match t.startedAt with
  | none => .zero
  | some startedAt => Duration.between startedAt (t.pausedAt.getD now) - t.pausedFor

def remaining (t : Timeline) (now : Instant) : Duration := t.total - t.elapsed now

/-- The part that was played. A timeline without length is over as soon as it starts. -/
def progress (t : Timeline) (now : Instant) : Rat :=
  if !t.isStarted then 0
  else if t.total = .zero then 1
  else
    let part := Binary64.div (t.elapsed now).binarySeconds t.total.binarySeconds
    if part ≤ 1 then part else 1

def snapshot (t : Timeline) (now : Instant) : Snapshot :=
  { total := t.total
    elapsed := t.elapsed now
    remaining := t.remaining now
    progress := t.progress now
    paused := t.isPaused }

end Timeline

end Choreo
