import Choreo.Channel

/-!
# The channel loses, repeats and reorders nothing

Producers act whenever they like, also while the consumer is in the middle of a call. A call of the
consumer therefore is not one step but many: it looks into the queue again and again, and returns when
it finds the queue empty. A run is told by the acts of all parties, the latest first.
-/

namespace Choreo.Channel

/-! ## Steps -/

inductive Errand where
  | rest
  /-- It has executed so many envelopes in this call, and is about to look for the next one. -/
  | draining (executed : Nat)
  /-- The host executes an envelope, after so many others in this call. -/
  | executing (executed : Nat)
  /-- It has taken these envelopes in this call, and is about to look for the next one. -/
  | taking (taken : List Envelope)
deriving DecidableEq

/-- What was taken out of the queue and not yet handed out. -/
def Errand.inHand : Errand → List Envelope
  | .taking taken => taken
  | _ => []

def Errand.executes : Errand → Bool
  | .executing _ => true
  | _ => false

structure Exchange where
  channel : Channel := {}
  errand : Errand := .rest
deriving DecidableEq

inductive Act where
  | send (producer : Nat) (e : Envelope)
  | clone (producer : Nat)
  | drop (producer : Nat)
  /-- A call that executes what was sent begins. -/
  | drain
  | execute (e : Envelope)
  /-- The host has executed an envelope, or failed to. -/
  | answer (accepted : Bool)
  /-- The call returns how many it has executed. -/
  | drained (count : Nat)
  /-- A call that takes out what was sent begins. -/
  | take
  | pick (e : Envelope)
  /-- The call returns what it has taken. -/
  | taken (es : List Envelope)
deriving DecidableEq

def Act.returns : Act → Bool
  | .drained _ | .taken _ => true
  | _ => false

/-- Only a producer that lives does anything. The consumer does one thing at a time. -/
inductive Step : Exchange → Act → Exchange → Prop where
  | send {c : Channel} {errand : Errand} (producer : Nat) (hlives : c.lives producer = true)
      (e : Envelope) : Step ⟨c, errand⟩ (.send producer e) ⟨(c.send producer e).1, errand⟩
  | clone {c : Channel} {errand : Errand} (producer : Nat) (hlives : c.lives producer = true) :
      Step ⟨c, errand⟩ (.clone producer) ⟨(c.clone producer).1, errand⟩
  | drop {c : Channel} {errand : Errand} (producer : Nat) (hlives : c.lives producer = true) :
      Step ⟨c, errand⟩ (.drop producer) ⟨c.drop producer, errand⟩
  | drain {c : Channel} : Step ⟨c, .rest⟩ .drain ⟨c, .draining 0⟩
  | execute {c : Channel} {executed : Nat} {e : Envelope} {rest : List Envelope}
      (hqueue : c.queue = e :: rest) :
      Step ⟨c, .draining executed⟩ (.execute e) ⟨c.present rest, .executing executed⟩
  | answer {c : Channel} {executed : Nat} (accepted : Bool) :
      Step ⟨c, .executing executed⟩ (.answer accepted) ⟨c.close, .draining (executed + 1)⟩
  | drained {c : Channel} {executed : Nat} (hqueue : c.queue = []) :
      Step ⟨c, .draining executed⟩ (.drained executed) ⟨c.foundEmpty, .rest⟩
  | take {c : Channel} : Step ⟨c, .rest⟩ .take ⟨c, .taking []⟩
  | pick {c : Channel} {taken : List Envelope} {e : Envelope} {rest : List Envelope}
      (hqueue : c.queue = e :: rest) :
      Step ⟨c, .taking taken⟩ (.pick e) ⟨{ c with queue := rest }, .taking (taken ++ [e])⟩
  | taken {c : Channel} {es : List Envelope} (hqueue : c.queue = []) :
      Step ⟨c, .taking es⟩ (.taken es) ⟨c.foundEmpty, .rest⟩

inductive Run (first : Exchange) : List Act → Exchange → Prop where
  | stay : Run first [] first
  | step {acts : List Act} {x y : Exchange} {act : Act} (run : Run first acts x)
      (hstep : Step x act y) : Run first (act :: acts) y

variable {acts later earlier : List Act} {first x y z : Exchange} {act : Act} {c : Channel}

theorem Run.trans (hfirst : Run x earlier y) (hsecond : Run y later z) :
    Run x (later ++ earlier) z := by
  induction hsecond with
  | stay => exact hfirst
  | step _ hstep ih => exact ih.step hstep

theorem Step.run (hstep : Step x act y) : Run x [act] y := Run.stay.step hstep

/-! ## What the acts amount to -/

def Act.sent : Act → List Envelope
  | .send _ e => [e]
  | _ => []

def Act.executed : Act → List Envelope
  | .execute e => [e]
  | _ => []

def Act.handedOut : Act → List Envelope
  | .execute e => [e]
  | .taken es => es
  | _ => []

def Act.creates : Act → Bool
  | .clone _ => true
  | _ => false

def Act.drops : Act → Bool
  | .drop _ => true
  | _ => false

def gather (envelopes : Act → List Envelope) (acts : List Act) : List Envelope :=
  acts.reverse.flatMap envelopes

def sent (acts : List Act) : List Envelope := gather Act.sent acts

def executed (acts : List Act) : List Envelope := gather Act.executed acts

/-- What the consumer has handed out, by having it executed or by returning it. -/
def handedOut (acts : List Act) : List Envelope := gather Act.handedOut acts

def created (acts : List Act) : Nat := acts.countP Act.creates + 1

def dropped (acts : List Act) : Nat := acts.countP Act.drops

theorem gather_cons (envelopes : Act → List Envelope) (act : Act) (acts : List Act) :
    gather envelopes (act :: acts) = gather envelopes acts ++ envelopes act := by
  simp [gather]

theorem gather_append (envelopes : Act → List Envelope) (later earlier : List Act) :
    gather envelopes (later ++ earlier) = gather envelopes earlier ++ gather envelopes later := by
  simp [gather]

theorem executed_cons (act : Act) (acts : List Act) :
    executed (act :: acts) = executed acts ++ act.executed := gather_cons Act.executed act acts

theorem executed_append (later earlier : List Act) :
    executed (later ++ earlier) = executed earlier ++ executed later :=
  gather_append Act.executed later earlier

theorem handedOut_cons (act : Act) (acts : List Act) :
    handedOut (act :: acts) = handedOut acts ++ act.handedOut := gather_cons Act.handedOut act acts

theorem sent_cons (act : Act) (acts : List Act) : sent (act :: acts) = sent acts ++ act.sent :=
  gather_cons Act.sent act acts

/-! ## Producers -/

theorem abandoned_iff_lives (c : Channel) :
    c.abandoned = true ↔ ∀ producer, c.lives producer = false := by
  simp only [abandoned, lives, List.all_eq_true, Bool.not_eq_true']
  constructor
  · intro hall producer
    cases hget : c.producers[producer]? with
    | none => rfl
    | some lives => exact hall lives (List.mem_of_getElem? hget)
  · intro hall lives hmem
    obtain ⟨producer, hget⟩ := List.mem_iff_getElem?.1 hmem
    simpa [hget] using hall producer

theorem abandoned_iff_count (c : Channel) :
    c.abandoned = true ↔ c.producers.count true = 0 := by
  simp [abandoned, List.count_eq_zero]

theorem send_eq (c : Channel) (producer : Nat) (e : Envelope) :
    (c.send producer e).1 = { c with queue := (c.send producer e).1.queue } := by
  unfold send
  split
  · split <;> rfl
  · rfl

theorem queue_send {producer : Nat} (hlives : c.lives producer = true)
    (hlistening : c.listening = true) (e : Envelope) :
    (c.send producer e).1.queue = c.queue ++ [e] := by
  simp [send, hlives, hlistening]

theorem count_clone {producer : Nat} (hlives : c.lives producer = true) :
    (c.clone producer).1.producers.count true = c.producers.count true + 1 := by
  simp [clone, hlives]

theorem count_drop {producer : Nat} (hlives : c.lives producer = true) :
    (c.drop producer).producers.count true + 1 = c.producers.count true := by
  unfold lives at hlives
  obtain ⟨hlt, hget⟩ : ∃ hlt : producer < c.producers.length, c.producers[producer] = true := by
    cases hget : c.producers[producer]? with
    | none => simp [hget] at hlives
    | some lives =>
      rw [hget, Option.getD_some] at hlives
      rw [hlives] at hget
      exact List.getElem?_eq_some_iff.1 hget
  have hmem : true ∈ c.producers := hget ▸ List.getElem_mem hlt
  have hpos := List.count_pos_iff.2 hmem
  have hset : (c.drop producer).producers.count true = c.producers.count true - 1 := by
    simp [drop, List.count_set hlt, hget]
  omega

theorem not_abandoned {producer : Nat} (hlives : c.lives producer = true) :
    c.abandoned = false := by
  refine Bool.eq_false_iff.2 fun habandoned => ?_
  have hgone := (abandoned_iff_lives c).1 habandoned producer
  rw [hlives] at hgone
  cases hgone

/-! ## One step -/

/-- What was taken out of the queue and not handed out, and what is still in it. -/
def Exchange.pending (x : Exchange) : List Envelope := x.errand.inHand ++ x.channel.queue

theorem Step.listening (hstep : Step x act y) : y.channel.listening = x.channel.listening := by
  cases hstep with
  | send producer hlives e => rw [send_eq]
  | _ => rfl

/-- What a step hands out comes from the front, and what it sends goes to the back. -/
theorem Step.pending (hstep : Step x act y) (hlistening : x.channel.listening = true) :
    act.handedOut ++ y.pending = x.pending ++ act.sent := by
  unfold Exchange.pending
  cases hstep with
  | send producer hlives e => simp [queue_send hlives hlistening, Act.handedOut, Act.sent]
  | clone | drop | drain | answer | take =>
    simp [Act.handedOut, Act.sent, Errand.inHand, Channel.clone, Channel.drop, close]
  | execute hqueue | pick hqueue =>
    simp [Act.handedOut, Act.sent, Errand.inHand, present, hqueue]
  | drained hqueue | taken hqueue =>
    simp [Act.handedOut, Act.sent, Errand.inHand, foundEmpty, hqueue]

theorem Step.gate (hstep : Step x act y) (hgate : x.channel.gateOpen = x.errand.executes) :
    y.channel.gateOpen = y.errand.executes := by
  cases hstep with
  | send producer hlives e =>
    rw [send_eq]
    exact hgate
  | clone | drop | drain | take | drained | pick | taken => exact hgate
  | execute | answer => rfl

theorem Step.producers (hstep : Step x act y) :
    y.channel.producers.count true + dropped [act] + 1 =
      x.channel.producers.count true + created [act] := by
  cases hstep with
  | send producer hlives e =>
    rw [send_eq]
    rfl
  | clone producer hlives =>
    rw [count_clone hlives]
    rfl
  | drop producer hlives =>
    rw [← count_drop hlives]
    rfl
  | _ => rfl

theorem Step.abandoned (hstep : Step x act y) (habandoned : x.channel.abandoned = true) :
    y.channel.abandoned = true ∧ act.sent = [] := by
  cases hstep with
  | send _ hlives | clone _ hlives | drop _ hlives =>
    rw [not_abandoned hlives] at habandoned
    cases habandoned
  | _ => exact ⟨habandoned, rfl⟩

/-- The consumer learns that all producers are gone as a call returns, and does not forget it. -/
theorem Step.disconnected (hstep : Step x act y) :
    y.channel.disconnected = (x.channel.disconnected || act.returns && x.channel.abandoned) := by
  cases hstep with
  | send producer hlives e =>
    rw [send_eq]
    exact (Bool.or_false _).symm
  | drained | taken => rfl
  | _ => exact (Bool.or_false _).symm

theorem Step.of_returns (hstep : Step x act y) (hreturns : act.returns = true) :
    y.pending = [] ∧ y.channel.abandoned = x.channel.abandoned := by
  cases hstep with
  | drained | taken => exact ⟨rfl, rfl⟩
  | _ => cases hreturns

/-! ## Runs -/

/-- What was sent was handed out first and is pending then. The gate is open while the host executes.
Each producer that there has been lives or was dropped. Once the consumer takes all producers for gone,
they are, and nothing is pending. -/
structure Balanced (acts : List Act) (x : Exchange) : Prop where
  listening : x.channel.listening = true
  envelopes : sent acts = handedOut acts ++ x.pending
  gate : x.channel.gateOpen = x.errand.executes
  producers : x.channel.producers.count true + dropped acts = created acts
  disconnected : x.channel.disconnected = true → x.channel.abandoned = true ∧ x.pending = []

theorem balanced_start : Balanced [] {} where
  listening := rfl
  envelopes := rfl
  gate := rfl
  producers := rfl
  disconnected := nofun

theorem Balanced.step (h : Balanced acts x) (hstep : Step x act y) : Balanced (act :: acts) y where
  listening := hstep.listening.trans h.listening
  envelopes := by
    rw [sent_cons, handedOut_cons, List.append_assoc, hstep.pending h.listening,
      ← List.append_assoc, h.envelopes]
  gate := hstep.gate h.gate
  producers := by
    have hproducers := hstep.producers
    have hbefore := h.producers
    simp only [created, dropped, List.countP_cons, List.countP_nil] at hproducers hbefore ⊢
    omega
  disconnected hdisconnected := by
    rw [hstep.disconnected, Bool.or_eq_true, Bool.and_eq_true] at hdisconnected
    rcases hdisconnected with hbefore | ⟨hreturns, habandoned⟩
    · obtain ⟨habandoned, hpending⟩ := h.disconnected hbefore
      obtain ⟨hgone, hsent⟩ := hstep.abandoned habandoned
      have hafter := hstep.pending h.listening
      rw [hpending, hsent] at hafter
      exact ⟨hgone, (List.append_eq_nil_iff.1 hafter).2⟩
    · exact ⟨(hstep.abandoned habandoned).1, (hstep.of_returns hreturns).1⟩

theorem Balanced.abandoned_iff (h : Balanced acts x) :
    x.channel.abandoned = true ↔ dropped acts = created acts := by
  have hproducers := h.producers
  rw [abandoned_iff_count]
  omega

theorem Run.balanced (run : Run {} acts x) : Balanced acts x := by
  induction run with
  | stay => exact balanced_start
  | step _ hstep ih => exact ih.step hstep

theorem Run.abandoned (run : Run x later y) (habandoned : x.channel.abandoned = true) :
    y.channel.abandoned = true ∧ sent later = [] := by
  induction run with
  | stay => exact ⟨habandoned, rfl⟩
  | step _ hstep ih =>
    obtain ⟨hgone, hsent⟩ := hstep.abandoned ih.1
    exact ⟨hgone, by rw [sent_cons, ih.2, hsent, List.append_nil]⟩

theorem Run.disconnected (run : Run x later y) (hdisconnected : x.channel.disconnected = true) :
    y.channel.disconnected = true := by
  induction run with
  | stay => exact hdisconnected
  | step _ hstep ih => rw [hstep.disconnected, ih, Bool.true_or]

theorem Run.counted {during : List Act} (run : Run first (during ++ .drain :: earlier) x)
    (hduring : .drain ∉ during) :
    match x.errand with
    | .draining count => count = (executed during).length
    | .executing count => count + 1 = (executed during).length
    | _ => True := by
  induction during generalizing x with
  | nil =>
    cases run with
    | step _ hstep =>
      cases hstep
      rfl
  | cons act during ih =>
    obtain ⟨hact, hduring⟩ := not_or.1 (mt List.mem_cons.2 hduring)
    cases run with
    | step run hstep =>
      have hbefore := ih run hduring
      rw [executed_cons, List.length_append]
      cases hstep with
      | drain => exact absurd rfl hact
      | send | clone | drop => exact hbefore
      | execute hqueue => exact congrArg (· + 1) hbefore
      | answer accepted => exact hbefore
      | drained | take | pick | taken => trivial

theorem Run.executed_eq_handedOut (run : Run {} acts x) (htake : .take ∉ acts) :
    executed acts = handedOut acts ∧ ∀ es, x.errand ≠ .taking es := by
  induction run with
  | stay => exact ⟨rfl, nofun⟩
  | @step acts x y act _ hstep ih =>
    obtain ⟨hact, htake⟩ := not_or.1 (mt List.mem_cons.2 htake)
    obtain ⟨hsame, herrand⟩ := ih htake
    rw [executed_cons, handedOut_cons, hsame]
    cases hstep with
    | send | clone | drop => exact ⟨rfl, herrand⟩
    | drain | execute | answer | drained => exact ⟨rfl, nofun⟩
    | take => exact absurd rfl hact
    | pick | taken => exact absurd rfl (herrand _)

/-! ## Calls that nobody cuts into -/

def executing (host : Envelope → Bool) : List Envelope → List Act
  | [] => []
  | e :: rest => executing host rest ++ [.answer (host e), .execute e]

theorem executed_executing (host : Envelope → Bool) (queue : List Envelope) :
    executed (executing host queue) = queue := by
  induction queue with
  | nil => rfl
  | cons e rest ih =>
    rw [executing, executed_append, ih]
    rfl

theorem not_take_mem_executing (host : Envelope → Bool) (queue : List Envelope) :
    .take ∉ executing host queue := by
  induction queue with
  | nil => exact List.not_mem_nil
  | cons e rest ih => simpa [executing] using ih

theorem executeAll_snd (host : Envelope → Bool) (c : Channel) (queue : List Envelope) :
    (c.executeAll host queue).2 = queue.map fun e => ⟨e, true, host e⟩ := by
  induction queue generalizing c with
  | nil => rfl
  | cons e rest ih =>
    simp only [executeAll, List.map_cons, ih]
    rfl

theorem run_executeAll (host : Envelope → Bool) (c : Channel) (count : Nat) :
    Run ⟨c, .draining count⟩ (.drained (count + c.queue.length) :: executing host c.queue)
      ⟨(c.executeAll host c.queue).1, .rest⟩ := by
  generalize hqueue : c.queue = queue
  induction queue generalizing c count with
  | nil => exact (Step.drained hqueue).run
  | cons e rest ih =>
    have hfirst : Run ⟨c, .draining count⟩ [.answer (host e), .execute e]
        ⟨(c.present rest).close, .draining (count + 1)⟩ :=
      (Step.execute hqueue).run.step (.answer (host e))
    have hrest := ih (c.present rest).close (count + 1) rfl
    have hcount : count + (e :: rest).length = count + 1 + rest.length := by
      rw [List.length_cons]
      omega
    rw [hcount]
    exact hfirst.trans hrest

def drainActs (host : Envelope → Bool) (queue : List Envelope) : List Act :=
  .drained queue.length :: executing host queue ++ [.drain]

theorem executed_drainActs (host : Envelope → Bool) (queue : List Envelope) :
    executed (drainActs host queue) = queue := by
  rw [drainActs, List.cons_append, executed_cons, executed_append, executed_executing]
  exact List.append_nil queue

theorem not_take_mem_drainActs (host : Envelope → Bool) (queue : List Envelope) :
    .take ∉ drainActs host queue := by
  simp [drainActs, not_take_mem_executing]

theorem run_drain (host : Envelope → Bool) (c : Channel) :
    Run ⟨c, .rest⟩ (drainActs host c.queue) ⟨(c.drain host).1, .rest⟩ := by
  have hexecuting := run_executeAll host c 0
  rw [Nat.zero_add] at hexecuting
  exact Step.drain.run.trans hexecuting

def takeActs (queue : List Envelope) : List Act :=
  .taken queue :: (queue.map Act.pick).reverse ++ [.take]

theorem run_picks (c : Channel) (queue : List Envelope) (taken : List Envelope)
    (hqueue : c.queue = queue) :
    Run ⟨c, .taking taken⟩ (queue.map Act.pick).reverse
      ⟨{ c with queue := [] }, .taking (taken ++ queue)⟩ := by
  induction queue generalizing c taken with
  | nil =>
    have hsame : { c with queue := [] } = c := by rw [← hqueue]
    rw [hsame, List.append_nil]
    exact .stay
  | cons e rest ih =>
    have hrest := ih { c with queue := rest } (taken ++ [e]) rfl
    rw [List.append_assoc] at hrest
    rw [List.map_cons, List.reverse_cons]
    exact (Step.pick hqueue).run.trans hrest

theorem run_takePending (c : Channel) :
    Run ⟨c, .rest⟩ (takeActs c.queue) ⟨c.takePending.1, .rest⟩ := by
  have hpicks := run_picks c c.queue [] rfl
  exact Step.take.run.trans (hpicks.step (.taken rfl))

/-! ## The visits of the host -/

def Act.byProducer (c : Channel) : Act → Channel
  | .send producer e => if c.lives producer then (c.send producer e).1 else c
  | .clone producer => if c.lives producer then (c.clone producer).1 else c
  | .drop producer => if c.lives producer then c.drop producer else c
  | _ => c

def visits (host : Envelope → Bool) (rounds : List (List Act)) (c : Channel) :
    Channel × List Execution × Bool :=
  c.visit host (rounds.map fun acts c => acts.foldl Act.byProducer c)

theorem run_byProducer (c : Channel) (act : Act) :
    ∃ later, Run ⟨c, .rest⟩ later ⟨act.byProducer c, .rest⟩ ∧ .take ∉ later ∧
      executed later = [] := by
  have hidle : ∃ later, Run ⟨c, .rest⟩ later ⟨c, .rest⟩ ∧ .take ∉ later ∧ executed later = [] :=
    ⟨[], .stay, List.not_mem_nil, rfl⟩
  cases act with
  | send producer e =>
    simp only [Act.byProducer]
    split
    · next hlives => exact ⟨_, (Step.send producer hlives e).run, by simp, rfl⟩
    · exact hidle
  | clone producer =>
    simp only [Act.byProducer]
    split
    · next hlives => exact ⟨_, (Step.clone producer hlives).run, by simp, rfl⟩
    · exact hidle
  | drop producer =>
    simp only [Act.byProducer]
    split
    · next hlives => exact ⟨_, (Step.drop producer hlives).run, by simp, rfl⟩
    · exact hidle
  | _ => exact hidle

theorem run_foldl_byProducer (acts : List Act) (c : Channel) :
    ∃ later, Run ⟨c, .rest⟩ later ⟨acts.foldl Act.byProducer c, .rest⟩ ∧ .take ∉ later ∧
      executed later = [] := by
  induction acts generalizing c with
  | nil => exact ⟨[], .stay, List.not_mem_nil, rfl⟩
  | cons act acts ih =>
    obtain ⟨first, hfirst, hfirstTake, hfirstExecuted⟩ := run_byProducer c act
    obtain ⟨rest, hrest, hrestTake, hrestExecuted⟩ := ih (act.byProducer c)
    refine ⟨rest ++ first, hfirst.trans hrest, by simp [hfirstTake, hrestTake], ?_⟩
    rw [executed_append, hfirstExecuted, hrestExecuted, List.append_nil]

theorem visits_cons (host : Envelope → Bool) (acts : List Act) (rounds : List (List Act))
    (c : Channel) :
    c.visits host (acts :: rounds) =
      if (c.drain host).1.disconnected then ((c.drain host).1, (c.drain host).2, true)
      else
        let visited := (acts.foldl Act.byProducer (c.drain host).1).visits host rounds
        (visited.1, (c.drain host).2 ++ visited.2.1, visited.2.2) := rfl

/-- The visits are a run in which the consumer takes nothing for itself. They come to an end before
the producers do if and only if the host has learned that all of them are gone. -/
theorem run_visits (host : Envelope → Bool) (rounds : List (List Act)) (c : Channel) :
    ∃ later, Run ⟨c, .rest⟩ later ⟨(c.visits host rounds).1, .rest⟩ ∧ .take ∉ later ∧
      (c.visits host rounds).2.1 = (executed later).map (fun e => ⟨e, true, host e⟩) ∧
      (c.visits host rounds).2.2 = (c.visits host rounds).1.disconnected := by
  have hdrain (c : Channel) :
      (c.drain host).2 = (executed (drainActs host c.queue)).map fun e => ⟨e, true, host e⟩ := by
    rw [executed_drainActs, drain, executeAll_snd]
  induction rounds generalizing c with
  | nil =>
    exact ⟨_, run_drain host c, not_take_mem_drainActs host c.queue, hdrain c, rfl⟩
  | cons acts rounds ih =>
    rw [visits_cons]
    cases hgone : (c.drain host).1.disconnected with
    | true =>
      exact ⟨_, run_drain host c, not_take_mem_drainActs host c.queue, hdrain c, hgone.symm⟩
    | false =>
      obtain ⟨between, hbetween, hbetweenTake, hbetweenExecuted⟩ :=
        run_foldl_byProducer acts (c.drain host).1
      obtain ⟨later, hlater, htake, hexecutions, hfinished⟩ :=
        ih (acts.foldl Act.byProducer (c.drain host).1)
      refine ⟨later ++ (between ++ drainActs host c.queue),
        ((run_drain host c).trans hbetween).trans hlater, ?_, ?_, hfinished⟩
      · simp [htake, hbetweenTake, not_take_mem_drainActs]
      · have hall : executed (later ++ (between ++ drainActs host c.queue)) =
            executed (drainActs host c.queue) ++ executed later := by
          rw [executed_append, executed_append, hbetweenExecuted, List.append_nil]
        rw [hall, List.map_append, ← hdrain c, ← hexecutions]
        rfl

/-! ## What can be relied on -/

structure Reliable (acts : List Act) (x : Exchange) : Prop where
  /-- What was handed out was sent, in this order, each envelope once. -/
  inOrder : handedOut acts <+: sent acts
  /-- As a call returns, everything that was sent has been handed out. -/
  complete : ∀ call earlier, acts = call :: earlier → call.returns = true →
    handedOut acts = sent acts
  /-- A call counts what it has executed, whatever the host answered. -/
  counted : ∀ count during earlier, acts = .drained count :: (during ++ .drain :: earlier) →
    .drain ∉ during → count = (executed during).length
  gate : x.channel.gateOpen = true ↔ ∃ count, x.errand = .executing count
  /-- The consumer does not take producers for gone as long as anything may still come. -/
  learned : x.channel.disconnected = true →
    (∀ producer, x.channel.lives producer = false) ∧ x.channel.queue = []
  lasting : x.channel.disconnected = true →
    ∀ later y, Run x later y → y.channel.disconnected = true
  /-- None lives once each producer that there has been was dropped. -/
  gone : (∀ producer, x.channel.lives producer = false) ↔ dropped acts = created acts
  /-- As a call returns, the consumer knows whether every producer was dropped. -/
  detected : ∀ call earlier, acts = call :: earlier → call.returns = true →
    (x.channel.disconnected = true ↔ dropped acts = created acts)
  /-- A consumer that only executes, and stops when it knows that all producers are gone, has executed
  everything that is ever sent. -/
  finished : .take ∉ acts → x.channel.disconnected = true →
    executed acts = sent acts ∧ ∀ later y, Run x later y → sent later = []
  /-- A call that nobody cuts into does what `drain` says. -/
  drains : x.errand = .rest → ∀ host,
    Run x (drainActs host x.channel.queue) ⟨(x.channel.drain host).1, .rest⟩ ∧
      (x.channel.drain host).2 = x.channel.queue.map fun e => ⟨e, true, host e⟩
  /-- A call that nobody cuts into does what `takePending` says. -/
  takes : x.errand = .rest →
    Run x (takeActs x.channel.takePending.2) ⟨x.channel.takePending.1, .rest⟩
  /-- The host that visits the channel once per tick comes to an end only after it has executed
  everything that is ever sent. -/
  visited : x.errand = .rest → .take ∉ acts → ∀ host rounds, ∃ later,
    Run x later ⟨(x.channel.visits host rounds).1, .rest⟩ ∧
      (x.channel.visits host rounds).2.1 = (executed later).map (fun e => ⟨e, true, host e⟩) ∧
      ((x.channel.visits host rounds).2.2 = true →
        executed (later ++ acts) = sent (later ++ acts) ∧
          ∀ further y, Run ⟨(x.channel.visits host rounds).1, .rest⟩ further y → sent further = [])

theorem Errand.executes_iff (errand : Errand) :
    errand.executes = true ↔ ∃ count, errand = .executing count := by
  cases errand with
  | executing count => exact iff_of_true rfl ⟨count, rfl⟩
  | _ => exact iff_of_false nofun nofun

theorem Run.of_returns (run : Run {} (act :: earlier) x) (hreturns : act.returns = true) :
    handedOut (act :: earlier) = sent (act :: earlier) ∧
      (x.channel.disconnected = true ↔ dropped (act :: earlier) = created (act :: earlier)) := by
  obtain ⟨-, hsent, -, -, hlearned⟩ := run.balanced
  have hall := run.balanced.abandoned_iff
  cases run with
  | step _ hstep =>
    obtain ⟨hpending, hsame⟩ := hstep.of_returns hreturns
    rw [hpending, List.append_nil] at hsent
    refine ⟨hsent.symm, fun hdisconnected => hall.1 (hlearned hdisconnected).1, fun hdropped => ?_⟩
    rw [hstep.disconnected, hreturns, ← hsame, hall.2 hdropped]
    exact Bool.or_true _

theorem Run.executed_eq_sent (run : Run {} acts x) (htake : .take ∉ acts)
    (hdisconnected : x.channel.disconnected = true) :
    executed acts = sent acts ∧ ∀ later y, Run x later y → sent later = [] := by
  obtain ⟨habandoned, hpending⟩ := run.balanced.disconnected hdisconnected
  have hsent := run.balanced.envelopes
  rw [hpending, List.append_nil] at hsent
  exact ⟨(run.executed_eq_handedOut htake).1.trans hsent.symm,
    fun _ _ hlater => (hlater.abandoned habandoned).2⟩

/-- Whatever producers and consumer do, and whenever they do it, the channel loses, repeats and reorders
nothing, its gate is open only while the host executes, and the consumer learns in time that all
producers are gone. -/
theorem Run.reliable (run : Run {} acts x) : Reliable acts x where
  inOrder := by
    rw [run.balanced.envelopes]
    exact List.prefix_append _ _
  complete := by
    rintro call earlier rfl hreturns
    exact (run.of_returns hreturns).1
  counted := by
    rintro count during earlier rfl hduring
    cases run with
    | step run hstep =>
      have hcounted := run.counted hduring
      cases hstep
      exact hcounted
  gate := by
    rw [run.balanced.gate]
    exact x.errand.executes_iff
  learned hdisconnected := by
    obtain ⟨habandoned, hpending⟩ := run.balanced.disconnected hdisconnected
    exact ⟨(abandoned_iff_lives _).1 habandoned, (List.append_eq_nil_iff.1 hpending).2⟩
  lasting hdisconnected _ _ hlater := hlater.disconnected hdisconnected
  gone := (abandoned_iff_lives _).symm.trans run.balanced.abandoned_iff
  detected := by
    rintro call earlier rfl hreturns
    exact (run.of_returns hreturns).2
  finished htake hdisconnected := run.executed_eq_sent htake hdisconnected
  drains hrest host := by
    obtain ⟨c, errand⟩ := x
    cases hrest
    exact ⟨run_drain host c, executeAll_snd host c c.queue⟩
  takes hrest := by
    obtain ⟨c, errand⟩ := x
    cases hrest
    exact run_takePending c
  visited hrest htake host rounds := by
    obtain ⟨c, errand⟩ := x
    cases hrest
    obtain ⟨later, hlater, hlaterTake, hexecutions, hfinished⟩ := run_visits host rounds c
    refine ⟨later, hlater, hexecutions, fun hend => ?_⟩
    rw [hfinished] at hend
    exact (run.trans hlater).executed_eq_sent (by simp [htake, hlaterTake]) hend

/-- A second producer sends while the host fails at the first command, and the last call takes what is
left. -/
def relay (a b : Envelope) : List Act :=
  [.taken [a], .pick a, .take, .drop 1, .send 1 a, .drop 0, .drained 2, .answer true, .execute b,
    .answer false, .send 1 b, .execute a, .drain, .clone 0, .send 0 a]

theorem run_relay (a b : Envelope) :
    Run {} (relay a b) ⟨{ producers := [false, false], disconnected := true }, .rest⟩ := by
  have hsent : Run {} [.clone 0, .send 0 a] ⟨{ queue := [a], producers := [true, true] }, .rest⟩ :=
    (Step.send 0 rfl a).run.step (.clone 0 rfl)
  have hfailed := (((hsent.step .drain).step (.execute rfl)).step (.send 1 rfl b)).step
    (.answer false)
  have hdrained := ((hfailed.step (.execute rfl)).step (.answer true)).step (.drained rfl)
  have hdropped := ((hdrained.step (.drop 0 rfl)).step (.send 1 rfl a)).step (.drop 1 rfl)
  exact ((hdropped.step .take).step (.pick rfl)).step (.taken rfl)

theorem reliable_relay :
    let a : Envelope := ⟨"/a", .queue, none⟩
    let b : Envelope := ⟨"/b", .noQueue, some ⟨1⟩⟩
    Reliable (relay a b) ⟨{ producers := [false, false], disconnected := true }, .rest⟩ ∧
      sent (relay a b) = [a, b, a] ∧ handedOut (relay a b) = [a, b, a] ∧
      created (relay a b) = 2 :=
  ⟨Run.reliable (run_relay _ _), rfl, rfl, rfl⟩

end Choreo.Channel
