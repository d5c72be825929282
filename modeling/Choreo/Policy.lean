import Choreo.SessionId
import Choreo.Settings

/-!
# Policy

What all sessions share: the rate of ticks, the overrides, and two flags that tell the host about
its player. The session that armed a flag last owns it. A ticket for releasing a flag is worth
something only as long as nothing has happened to the flag since it was given out, which the flag
counts in its generation.
-/

namespace Choreo

inductive AutoFlag where
  | busy
  | mare
deriving DecidableEq

inductive TickRate where
  | normal
  | fast
deriving DecidableEq

structure FlagState where
  armed : Bool := false
  owner : Option SessionId := none
  /-- How often the flag was armed, cleared or released. -/
  generation : Nat := 0
deriving DecidableEq

namespace FlagState

def arm (f : FlagState) (owner : SessionId) : FlagState :=
  { armed := true, owner := some owner, generation := f.generation + 1 }

def disarm (f : FlagState) : FlagState :=
  if f.armed then { armed := false, owner := none, generation := f.generation + 1 } else f

end FlagState

/-- The right to release a flag, as long as it stays in one generation. -/
structure Ticket where
  flag : AutoFlag
  generation : Nat
deriving DecidableEq

structure Policy where
  ignoreLooping : Bool := false
  ignoreCountdown : Bool := false
  rate : TickRate := .normal
  normalTick : Duration := .ofMillis 33
  fastTick : Duration := .ofMillis 16
  busy : FlagState := {}
  mare : FlagState := {}
deriving DecidableEq

namespace Policy

/-- The policy that settings ask for. A tick takes at least a millisecond. -/
def ofSettings (s : PlaybackSettings) : Policy :=
  { ignoreLooping := s.ignoreLooping
    ignoreCountdown := s.ignoreCountdown
    normalTick := .ofMillis (max s.tick 1)
    fastTick := .ofMillis (max s.fastTick 1) }

def tick (p : Policy) : Duration :=
  match p.rate with
  | .normal => p.normalTick
  | .fast => p.fastTick

def flag (p : Policy) : AutoFlag → FlagState
  | .busy => p.busy
  | .mare => p.mare

def setFlag (p : Policy) (flag : AutoFlag) (state : FlagState) : Policy :=
  match flag with
  | .busy => { p with busy := state }
  | .mare => { p with mare := state }

@[simp] theorem flag_setFlag_self (p : Policy) (f : AutoFlag) (s : FlagState) :
    (p.setFlag f s).flag f = s := by cases f <;> rfl

theorem flag_setFlag_of_ne (p : Policy) {f g : AutoFlag} (s : FlagState) (h : g ≠ f) :
    (p.setFlag f s).flag g = p.flag g := by
  cases f <;> cases g <;> simp_all [setFlag, flag]

def isArmed (p : Policy) (flag : AutoFlag) : Bool := (p.flag flag).armed

/-- Arms a flag, taking it over from whoever owns it. -/
def arm (p : Policy) (flag : AutoFlag) (owner : SessionId) : Policy :=
  p.setFlag flag ((p.flag flag).arm owner)

/-- Clears both flags, whoever owns them. -/
def disarmAll (p : Policy) : Policy := { p with busy := p.busy.disarm, mare := p.mare.disarm }

def ticket? (p : Policy) (flag : AutoFlag) (owner : SessionId) : Option Ticket :=
  let state := p.flag flag
  if state.armed ∧ state.owner = some owner then some ⟨flag, state.generation⟩ else none

def honours (p : Policy) (ticket : Ticket) : Bool :=
  (p.flag ticket.flag).armed && (p.flag ticket.flag).generation == ticket.generation

/-- Redeems a ticket, and tells whether it released its flag. -/
def release (p : Policy) (ticket : Ticket) : Policy × Bool :=
  if p.honours ticket then (p.setFlag ticket.flag (p.flag ticket.flag).disarm, true)
  else (p, false)

end Policy

end Choreo
