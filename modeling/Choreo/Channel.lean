import Choreo.SessionId

/-!
# The channel to the host

Sessions put commands into a queue, and the host takes them out once per tick, oldest first. Any
number of producers may come and go. A gate is open exactly while the host executes a command of the
queue. The host learns that all producers are gone when it finds the queue empty.

The queue itself is a library's. Assumed of it are
* order: envelopes come out in the order in which they were put in;
* completeness: each comes out once, and none is lost while someone listens, however many there are;
* detection: who finds it empty is told whether a producer is left.

`send`, `foundEmpty` and `abandoned` stand for it. When to take envelopes out, the gate around their
execution and what the host makes of an empty queue are playback's own.
-/

namespace Choreo

inductive DispatchMode where
  /-- Behind other input, if need be. -/
  | queue
  /-- At once or not at all. -/
  | noQueue
deriving DecidableEq

structure Envelope where
  command : String
  mode : DispatchMode
  /-- The session that it comes from, if any. -/
  origin : Option SessionId
deriving DecidableEq

structure Channel where
  /-- What was sent and not yet taken, oldest first. -/
  queue : List Envelope := []
  /-- Which producers live, by number. There is one to begin with. -/
  producers : List Bool := [true]
  /-- Whether anyone still takes envelopes out. -/
  listening : Bool := true
  /-- Whether the consumer knows that no envelope will come any more. -/
  disconnected : Bool := false
  gateOpen : Bool := false
deriving DecidableEq

structure Execution where
  envelope : Envelope
  gateOpen : Bool
  accepted : Bool
deriving DecidableEq

namespace Channel

def lives (c : Channel) (producer : Nat) : Bool := c.producers[producer]?.getD false

def abandoned (c : Channel) : Bool := c.producers.all (! ·)

/-- Sends an envelope, and tells whether there was a producer to send it. It is lost when nobody
listens. -/
def send (c : Channel) (producer : Nat) (e : Envelope) : Channel × Bool :=
  if c.lives producer then
    (if c.listening then { c with queue := c.queue ++ [e] } else c, true)
  else (c, false)

/-- A further producer, which lives if the one it comes from does, and its number. -/
def clone (c : Channel) (producer : Nat) : Channel × Nat :=
  ({ c with producers := c.producers ++ [c.lives producer] }, c.producers.length)

def drop (c : Channel) (producer : Nat) : Channel :=
  { c with producers := c.producers.set producer false }

def stopListening (c : Channel) : Channel := { c with listening := false, queue := [] }

def foundEmpty (c : Channel) : Channel :=
  { c with queue := [], disconnected := c.disconnected || c.abandoned }

/-- Takes out the oldest envelope, given what is behind it, and opens the gate for its execution. -/
def present (c : Channel) (rest : List Envelope) : Channel :=
  { c with queue := rest, gateOpen := true }

def close (c : Channel) : Channel := { c with gateOpen := false }

/-- Executes the envelopes of a queue, the gate being open around each of them, and finds the queue
empty. A command that the host refuses is not tried again. -/
def executeAll (host : Envelope → Bool) (c : Channel) : List Envelope → Channel × List Execution
  | [] => (c.foundEmpty, [])
  | e :: rest =>
    let opened := c.present rest
    let execution : Execution := ⟨e, opened.gateOpen, host e⟩
    let (c, executions) := executeAll host opened.close rest
    (c, execution :: executions)

def drain (host : Envelope → Bool) (c : Channel) : Channel × List Execution :=
  c.executeAll host c.queue

def takePending (c : Channel) : Channel × List Envelope := (c.foundEmpty, c.queue)

/-- The host visits the channel once per tick until it learns that all producers are gone. Between
two visits the producers act as the list says. The last part tells whether the host came to an end
before the list did. -/
def visit (host : Envelope → Bool) (c : Channel) :
    List (Channel → Channel) → Channel × List Execution × Bool
  | [] =>
    let (c, executions) := c.drain host
    (c, executions, c.disconnected)
  | act :: acts =>
    let (c, executions) := c.drain host
    if c.disconnected then (c, executions, true)
    else
      let (c, later, finished) := visit host (act c) acts
      (c, executions ++ later, finished)

end Channel

end Choreo
