import Choreo.Proofs.Playback.Coherence
import Choreo.Proofs.Playback.Unbroken

/-!
# How long a session stays in a region

A session may leave out waits: a directive is not waited for, and a ping shortens a wait. Otherwise it
keeps them, and pauses make it later still. So from the moment in which it enters a region at its first
command, it stays there for as long as the region says, less what it leaves out.

The instant at which playing would have had to begin to come to the next command on time, `outset`,
carries the argument: playing on leaves it where it is and pausing moves it ahead. Only a seek and going
back to the beginning could move it back.
-/

namespace Choreo

/-! ## What a story tells of a visit -/

def Beat.loops (program : Program) (beat : Beat) : Bool :=
  beat.executed?.any fun i => program.commands[i]?.any fun c =>
    decide (program.goesBack beat.ignoreLooping c)

/-- Whether a session went to another region, or to a command that was asked for, or ended. -/
def Beat.moves (beat : Beat) : Bool :=
  match beat.happening with
  | .noted (.reached _ (.entered _)) | .noted (.reached _ (.sought _)) => true
  | _ => beat.ends

/-- How much shorter a command was held than it was to wait, if one was executed. -/
def Beat.leftOut (program : Program) (ping : Duration) (beat : Beat) : Nat :=
  (beat.executed?.bind (program.commands[·]?)).elim 0 fun c => c.wait.nanos - c.heldFor ping

/-- The nanoseconds of waits that a session has left out. -/
def leftOut (program : Program) (settings : Settings) : List Beat → Nat
  | [] => 0
  | beat :: earlier =>
    leftOut program settings earlier + beat.leftOut program (account program settings earlier).ping

section Story

variable {settings : Settings} {id : SessionId} {program : Program} {story beats : List Beat}
variable {s : Session} {c : Command} {i : Nat}

theorem leftOut_of_forall_executed? (hnone : ∀ beat ∈ beats, beat.executed? = none) :
    leftOut program settings (beats ++ story) = leftOut program settings story := by
  induction beats with
  | nil => rfl
  | cons beat beats ih =>
    have hbeat : beat.executed? = none := hnone beat List.mem_cons_self
    rw [List.cons_append, leftOut, Beat.leftOut, hbeat]
    exact ih fun beat' hbeat' => hnone beat' (List.mem_cons_of_mem _ hbeat')

theorem leftOut_le_append (program : Program) (settings : Settings) (beats story : List Beat) :
    leftOut program settings story ≤ leftOut program settings (beats ++ story) := by
  induction beats with
  | nil => exact Nat.le_refl _
  | cons _ _ ih => exact ih.trans (Nat.le_add_right _ _)

/-- What is left out of a wait depends on the pings before it, and not on how it is arrived at. -/
theorem leftOut_execute (hcommand : program.commands[i]? = some c) (settings : Settings)
    (s : Session) (time : Nat) (ignoreLooping : Bool) (id : SessionId) (envelopes : List Envelope)
    (story : List Beat) :
    leftOut program settings
        (((s.arrivals id c ++ .reached id (.executed i) :: envelopes.map Event.sent).map
          (Beat.note time ignoreLooping)).reverse ++ story) =
      leftOut program settings story +
        (c.wait.nanos - c.heldFor (account program settings story).ping) := by
  have harrivals : ∀ beat ∈ ((s.arrivals id c).map (Beat.note time ignoreLooping)).reverse,
      beat.executed? = none := fun beat hbeat =>
    (Solo.Ordered.quiet_notes (Playhead.quiet_arrivals s id c) time ignoreLooping beat
      hbeat).executed?
  have hsent : ∀ beat ∈ (envelopes.reverse.map fun e => Beat.note time ignoreLooping (.sent e)),
      beat.executed? = none := by
    intro beat hbeat
    obtain ⟨envelope, -, rfl⟩ := List.mem_map.1 hbeat
    rfl
  rw [Solo.Ordered.notes_append, Beat.notes_sent, List.append_assoc, leftOut_of_forall_executed? hsent,
    List.singleton_append, leftOut, leftOut_of_forall_executed? harrivals, account_notes,
    Account.foldl_arrivals, Account.arrive_ping]
  congr 1
  simp [Beat.leftOut, Beat.note, Beat.executed?, hcommand]

end Story

/-! ## The steps of a playhead -/

namespace Playhead

variable {h head : Playhead} {v : Surroundings} {s : Session} {id : SessionId} {move : Move}
variable {c : Command} {program : Program} {settings : Settings} {story : List Beat}

/-- The instant at which playing would have had to begin to be done with the wait of the playhead on
time, had no wait been left out. -/
def outset (h : Playhead) (program : Program) (settings : Settings) (story : List Beat) : Int :=
  h.lastCheck + h.budget + leftOut program settings story -
    program.waitBefore (nextIndex program story)

/-- In a step, a session executes a command and goes on from there. -/
structure Executes (h : Playhead) (v : Surroundings) (s : Session) (id : SessionId) (move : Move)
    (c : Command) (head : Playhead) : Prop where
  turn : h.stage = .turn
  unpaused : s.status ≠ .paused
  command : s.program.commands[s.target]? = some c
  onward : ¬s.program.goesBack v.ignoreLooping c
  session : ∃ index pingOffset,
    move.session = { (s.execute v s.target c).1 with index, pingOffset }
  next : move.next.head? = some head
  stage : head.stage ≠ .opening
  lastCheck : head.lastCheck = (h.land v.now s).lastCheck
  budget : (h.land v.now s).Settled →
    head.budget = (h.land v.now s).budget + c.heldFor s.pingOffset
  events : move.events id = s.arrivals id c ++
    .reached id (.executed s.target) :: (c.envelopes v.settings.host id).map Event.sent

/-- In a step, a session goes on with what it does, no sooner than it would have before. -/
structure Stays (h : Playhead) (v : Surroundings) (s : Session) (move : Move) (head : Playhead) :
    Prop where
  session : ∃ index, move.session = { s with index }
  effects : move.effects = []
  next : move.next.head? = some head
  stage : head.stage ≠ .opening
  late : h.lastCheck ≤ v.now → head.lastCheck ≤ v.now ∧
    (h.lastCheck : Int) + h.budget ≤ head.lastCheck + head.budget

inductive Proceeds (h : Playhead) (v : Surroundings) (s : Session) (id : SessionId) (move : Move) :
    Prop where
  | opening (hstage : h.stage = .opening) (hnone : ∀ i, .reached id (.executed i) ∉ move.events id)
  | ended (hnext : move.next = .ended) (hnone : ∀ i, .reached id (.executed i) ∉ move.events id)
  | wentBack {c : Command} (hcommand : s.program.commands[s.target]? = some c)
      (hback : s.program.goesBack v.ignoreLooping c)
      (hexecuted : .reached id (.executed s.target) ∈ move.events id)
  | executes {c : Command} {head : Playhead} (hexecutes : h.Executes v s id move c head)
  | stays {head : Playhead} (hstays : h.Stays v s move head)

theorem awake_late (h : Playhead) (hle : h.lastCheck ≤ v.now) :
    (h.awake v).lastCheck ≤ v.now ∧
      (h.lastCheck : Int) + h.budget ≤ (h.awake v).lastCheck + (h.awake v).budget := by
  have hcast := Int.ofNat_le.2 hle
  unfold awake
  split
  · have hspent := settle_budget hcast
    refine ⟨Nat.le_refl _, ?_⟩
    show (h.lastCheck : Int) + h.budget ≤ v.now + (h.settle v.now).budget
    omega
  · exact ⟨Nat.le_refl _, Int.add_le_add_right hcast _⟩

theorem exists_stage_waiting (h : Playhead) (v : Surroundings) :
    ∃ stage, stage ≠ .opening ∧ (h.waiting v).head? = some { h with stage } := by
  unfold waiting
  split
  · exact ⟨.wait, by decide, rfl⟩
  · exact ⟨.pass, by decide, rfl⟩

theorem step_proceeds (h : Playhead) (v : Surroundings) (s : Session)
    (hflag : s.cancelled = true ↔ s.status = .cancelled) (id : SessionId) :
    Proceeds h v s id (h.step v s) := by
  have hstays (head : Playhead) (hstage : head.stage ≠ .opening) (index : Nat) (next : Next)
      (hnext : next.head? = some head)
      (hlate : h.lastCheck ≤ v.now → head.lastCheck ≤ v.now ∧
        (h.lastCheck : Int) + h.budget ≤ head.lastCheck + head.budget) :
      Proceeds h v s id ⟨{ s with index }, [], next⟩ :=
    .stays ⟨⟨index, rfl⟩, rfl, hnext, hstage, hlate⟩
  have houtcome := h.step_outcome v s
  generalize h.step v s = move at houtcome
  cases houtcome with
  | refused hstage | began hstage =>
    exact .opening hstage fun i hmem => by cases List.mem_singleton.1 hmem
  | stopped => exact .ended rfl fun i hmem => by cases List.mem_singleton.1 hmem
  | ranOut =>
    refine .ended rfl fun i hmem => ?_
    rw [Move.events, List.filterMap_append, s.landing_events] at hmem
    rcases List.mem_append.1 hmem with hsought | hended
    · obtain ⟨target, -, heq⟩ := List.mem_map.1 hsought
      cases heq
    · cases List.mem_singleton.1 hended
  | @wentBack c hstage hstop hplaying hcommand hback =>
    refine .wentBack hcommand hback ?_
    rw [s.wentBack_events (live_of_stopped? hflag hstop)]
    simp
  | @wentOn c hstage hstop hplaying hcommand hback hskips =>
    have hheld : c.heldFor s.pingOffset = 0 := if_pos hskips
    exact .executes
      { turn := hstage
        unpaused := hplaying
        command := hcommand
        onward := hback
        session := ⟨_, _, rfl⟩
        next := rfl
        stage := by simp
        lastCheck := rfl
        budget := fun _ => by simp [hheld]
        events := s.wentOn_events (live_of_stopped? hflag hstop) v _ c id _ }
  | @held c hstage hstop hplaying hcommand hskips =>
    have hheld : c.heldFor s.pingOffset = (c.wait - s.pingOffset).nanos := by
      rw [Command.heldFor, hskips, if_neg Bool.false_ne_true]
    obtain ⟨stage, hstage', hnext⟩ :=
      ((h.land v.now s).charge (c.wait - s.pingOffset)).exists_stage_waiting v
    exact .executes
      { turn := hstage
        unpaused := hplaying
        command := hcommand
        onward := not_goesBack_of_not_skipsWait hskips
        session := ⟨_, _, rfl⟩
        next := hnext
        stage := hstage'
        lastCheck := rfl
        budget := fun hsettled => by rw [hheld]; exact charge_budget hsettled _
        events := s.held_events (live_of_stopped? hflag hstop) v _ c id _ }
  | resting | passed =>
    exact hstays _ (by simp) _ _ rfl fun hle => ⟨hle, Int.le_refl _⟩
  | rested =>
    exact hstays _ (by simp) _ _ rfl fun hle =>
      ⟨Nat.le_refl _, Int.add_le_add_right (Int.ofNat_le.2 hle) _⟩
  | cut | suspended | waited | done =>
    exact hstays _ (by simp) _ _ rfl h.awake_late

theorem Executes.fields (h' : h.Executes v s id move c head) :
    move.session.program = s.program ∧ move.session.status = s.status ∧
      move.session.pendingSeek = none ∧ move.session.region = some c.region ∧
      move.session.regionTime = (s.execute v s.target c).1.regionTime := by
  obtain ⟨_, _, hsession⟩ := h'.session
  obtain ⟨_, _, hexecute⟩ := s.execute_fst v s.target c
  rw [hsession]
  exact ⟨s.execute_program v s.target c, s.execute_status v s.target c,
    s.execute_pendingSeek v s.target c, by rw [hexecute], rfl⟩

theorem Executes.nextIndex_eq (h' : h.Executes v s id move c head) (time : Nat)
    (story : List Beat) :
    nextIndex s.program (((move.events id).map (Beat.note time v.ignoreLooping)).reverse ++ story) =
      s.target + 1 := by
  rw [h'.events, nextIndex_execute]
  exact following_of_not_goesBack h'.command h'.onward

/-- Executing a command does not change when playing would have had to begin. -/
theorem Executes.outset_eq (h' : h.Executes v s id move c head)
    (hsettled : (h.land v.now s).Settled)
    (hping : s.pingOffset = (account s.program settings story).ping)
    (hindex : nextIndex s.program story = s.target) (time : Nat) :
    head.outset s.program settings
        (((move.events id).map (Beat.note time v.ignoreLooping)).reverse ++ story) =
      (h.land v.now s).outset s.program settings story := by
  have hheld := c.heldFor_le s.pingOffset
  have hleftOut := leftOut_execute h'.command settings s time v.ignoreLooping id
    (c.envelopes v.settings.host id) story
  have hnext := h'.nextIndex_eq time story
  rw [← hping, ← h'.events] at hleftOut
  unfold outset
  rw [hleftOut, hnext, hindex, Program.waitBefore_succ h'.command, h'.lastCheck,
    h'.budget hsettled]
  omega

theorem Stays.outset_le (h' : h.Stays v s move head) (hle : h.lastCheck ≤ v.now)
    (program : Program) (settings : Settings) (story : List Beat) :
    h.outset program settings story ≤ head.outset program settings story := by
  have hlate := (h'.late hle).2
  unfold outset
  omega

end Playhead

/-! ## Visits -/

/-- A visit of a region, from its first command on. -/
structure Visit where
  region : Nat
  wait : Duration
  entered : Nat
  first : Nat
  /-- The nanoseconds of waits that had been left out before. -/
  leftOut : Nat

namespace Visit

structure Opens (visit : Visit) (program : Program) : Prop where
  region : ∃ region, program.regions[visit.region]? = some region ∧ region.wait = visit.wait
  first : ∃ c, program.commands[visit.first]? = some c ∧ c.region = visit.region
  before : ∀ j < visit.first, ∀ d, program.commands[j]? = some d → d.region ≠ visit.region

/-- The instant at which playing would have had to begin to enter the region when it was entered. -/
def outset (visit : Visit) (program : Program) : Int :=
  visit.entered * 1000000 + visit.leftOut - program.waitBefore visit.first

/-- The region is not over by the end of a millisecond, nor is what is left out enough for that. -/
def Unfinished (visit : Visit) (clock leftOut : Nat) : Prop :=
  (clock + 1) * 1000000 + leftOut ≤ visit.entered * 1000000 + visit.wait.nanos + visit.leftOut

theorem Unfinished.mono {visit : Visit} {clock clock' leftOut leftOut' : Nat}
    (h : visit.Unfinished clock' leftOut') (hclock : clock ≤ clock') (hleftOut : leftOut ≤ leftOut') :
    visit.Unfinished clock leftOut := by
  have hmillis : (clock + 1) * 1000000 ≤ (clock' + 1) * 1000000 :=
    Nat.mul_le_mul_right 1000000 (Nat.succ_le_succ hclock)
  exact (Nat.add_le_add hmillis hleftOut).trans h

/-- Beyond the region come only commands for which its waits have to be over. -/
theorem Opens.waitBefore_add_le {visit : Visit} {program : Program} (h : visit.Opens program)
    (hblocks : program.Blocks) {n : Nat} (hlt : visit.first < n)
    (hbeyond : ∀ d, program.commands[n]? = some d → d.region ≠ visit.region) :
    program.waitBefore visit.first + visit.wait.nanos ≤ program.waitBefore n := by
  obtain ⟨c, hcommand, hregion⟩ := h.first
  obtain ⟨region, hsome, hwait⟩ := h.region
  have hbefore := h.before
  rw [← hregion] at hsome hbefore hbeyond
  rw [← hwait]
  exact hblocks.waitBefore_add_le hsome hbefore hcommand hlt hbeyond

end Visit

section Story

variable {settings : Settings} {id : SessionId} {story beats : List Beat} {visit : Visit}
variable {paused : Nat} {c : Command}

namespace Solo

variable {solo solo' : Solo}

theorem Step.active_before {punctual : Prop} (hstep : Step punctual settings id solo beats solo')
    (hactive : solo'.active = true) : solo.active = true := by
  cases hstep with
  | cancelled => cases hactive
  | @played head v =>
    have hand : (solo.active && (head.step v solo.session).next ≠ .ended) = true := hactive
    exact (Bool.and_eq_true_iff.1 hand).1
  | paused hactive' | resumed hactive' | sought hactive' => exact hactive'
  | idle | passed => exact hactive

/-- A session is still where it entered a region, and was paused there for some milliseconds. -/
structure Visiting (visit : Visit) (settings : Settings) (story : List Beat) (paused : Nat)
    (solo : Solo) : Prop where
  region : solo.session.region = some visit.region
  unsought : solo.session.pendingSeek = none
  since : visit.entered + paused ≤ solo.clock
  regionTime : solo.session.regionTime.Tracks visit.wait (solo.session.status = .paused) solo.now
    ((solo.clock - (visit.entered + paused)) * 1000000)
  within : visit.first < nextIndex solo.session.program story
  checked : ∀ head, solo.place.head? = some head →
    head.stage ≠ .opening ∧ head.lastCheck ≤ solo.now
  outset : ∀ head, solo.place.head? = some head →
    visit.outset solo.session.program - 1000000 < head.outset solo.session.program settings story

namespace Visiting

/-- The next command of a session is one of its region until enough time has passed. -/
theorem region_eq (h : Visiting visit settings story paused solo)
    (htimed : Timed settings story solo) (hordered : Ordered settings id story solo)
    (hopens : visit.Opens solo.session.program) (hblocks : solo.session.program.Blocks)
    {head : Playhead} (hplace : solo.place = .ready head) (hstage : head.stage = .turn)
    (hunfinished : visit.Unfinished solo.clock (leftOut solo.session.program settings story))
    (hcommand : solo.session.program.commands[solo.session.target]? = some c) :
    c.region = visit.region := by
  have hhead := Place.head?_ready hplace
  have hindex := hordered.turn hplace hstage
  have hkeeps := (htimed.ready hplace).keeps
  unfold Playhead.Keeps at hkeeps
  simp only [hstage] at hkeeps
  obtain ⟨hcheck, hsettled⟩ := hkeeps
  have hbudget : head.budget ≤ 0 := (hsettled h.unsought).1.2
  have houtset := h.outset head hhead
  by_contra hne
  have hbeyond : ∀ d, solo.session.program.commands[nextIndex solo.session.program story]? = some d →
      d.region ≠ visit.region := by
    intro d hd
    rw [hindex, hcommand] at hd
    cases hd
    exact hne
  have hwaits := hopens.waitBefore_add_le hblocks h.within hbeyond
  unfold Playhead.Checked at hcheck
  unfold Visit.outset Playhead.outset at houtset
  unfold Visit.Unfinished at hunfinished
  omega

section Playing

variable {head head' : Playhead} {v : Surroundings} {move : Move}

theorem after (h : Visiting visit settings story paused solo)
    (hprogram : move.session.program = solo.session.program)
    (hstatus : move.session.status = solo.session.status)
    (hseek : move.session.pendingSeek = none)
    (hregion : move.session.region = some visit.region)
    (hregionTime : move.session.regionTime = solo.session.regionTime)
    (hwithin : visit.first < nextIndex solo.session.program (beats ++ story))
    (hnext : move.next.head? = some head') (hstage : head'.stage ≠ .opening)
    (hcheck : head'.lastCheck ≤ solo.now)
    (houtset : visit.outset solo.session.program - 1000000 <
      head'.outset solo.session.program settings (beats ++ story)) :
    Visiting visit settings (beats ++ story) paused (solo.after move) := by
  have hplace : (solo.after move).place.head? = some head' :=
    (move.next.head?_place solo.clock).trans hnext
  rw [← hprogram] at hwithin houtset
  refine
    { region := hregion
      unsought := hseek
      since := h.since
      regionTime := ?_
      within := hwithin
      checked := fun head'' hhead => ?_
      outset := fun head'' hhead => ?_ }
  · show move.session.regionTime.Tracks visit.wait (move.session.status = .paused) solo.now _
    rw [hregionTime, hstatus]
    exact h.regionTime
  · rw [hplace] at hhead
    cases hhead
    exact ⟨hstage, hcheck⟩
  · rw [hplace] at hhead
    cases hhead
    exact houtset

theorem executes (h : Visiting visit settings story paused solo)
    (htimed : Timed settings story solo) (hordered : Ordered settings id story solo)
    (hopens : visit.Opens solo.session.program) (hplace : solo.place = .ready head)
    (hnow : v.now = solo.now) (hexecutes : head.Executes v solo.session id move c head')
    (hregion : c.region = visit.region) :
    Visiting visit settings
        (((move.events id).map (Beat.note solo.clock v.ignoreLooping)).reverse ++ story) paused
        (solo.after move) ∧
      ∀ event ∈ move.events id, (Beat.note solo.clock v.ignoreLooping event).moves = false := by
  have hhead := Place.head?_ready hplace
  have hindex := hordered.turn hplace hexecutes.turn
  have hland : head.land v.now solo.session = head := by
    rw [Playhead.land, h.unsought]
    rfl
  have hthere : solo.session.applySeek.region = some c.region := by
    rw [Session.applySeek, h.unsought, hregion]
    exact h.region
  have hready := htimed.ready hplace
  obtain ⟨-, hsettled, -⟩ := hready.keeps.land hexecutes.turn hnow
  obtain ⟨region, hsome, -⟩ := hopens.region
  obtain ⟨hprogram, hstatus, hseek, hregion', hregionTime⟩ := hexecutes.fields
  rw [Session.execute_regionTime (hregion ▸ hsome), if_pos hthere] at hregionTime
  have hlast := hexecutes.lastCheck
  have houtset := hexecutes.outset_eq hsettled hready.ping hindex solo.clock
  rw [hland] at hlast houtset
  refine ⟨h.after hprogram hstatus hseek (hregion ▸ hregion') hregionTime ?_ hexecutes.next
    hexecutes.stage ?_ ?_, fun event hevent => ?_⟩
  · have hwithin := h.within
    rw [hexecutes.nextIndex_eq, ← hindex]
    omega
  · rw [hlast]
    exact (h.checked head hhead).2
  · rw [houtset]
    exact h.outset head hhead
  · have harrivals : solo.session.arrivals id c = [] := by
      rw [Session.arrivals, h.unsought, if_pos hthere]
      rfl
    rw [hexecutes.events, harrivals, List.nil_append] at hevent
    rcases List.mem_cons.1 hevent with rfl | hsent
    · rfl
    · obtain ⟨envelope, -, rfl⟩ := List.mem_map.1 hsent
      rfl

/-- Until enough time has passed, a session that goes on stays in its region. -/
theorem played (h : Visiting visit settings story paused solo)
    (run : Run True settings id story solo) (hopens : visit.Opens solo.session.program)
    (hplace : solo.place = .ready head) (hnow : v.now = solo.now)
    (hactive : (solo.after (head.step v solo.session)).active = true)
    (hloops : ∀ event ∈ (head.step v solo.session).events id,
      (Beat.note solo.clock v.ignoreLooping event).loops solo.session.program = false)
    (hunfinished : visit.Unfinished solo.clock (leftOut solo.session.program settings story)) :
    Visiting visit settings
        ((((head.step v solo.session).events id).map
          (Beat.note solo.clock v.ignoreLooping)).reverse ++ story) paused
        (solo.after (head.step v solo.session)) ∧
      ∀ event ∈ (head.step v solo.session).events id,
        (Beat.note solo.clock v.ignoreLooping event).moves = false := by
  have hhead := Place.head?_ready hplace
  obtain ⟨hopening, hcheck⟩ := h.checked head hhead
  have hproceeds := head.step_proceeds v solo.session run.cancelled_iff id
  generalize head.step v solo.session = move at hproceeds hactive hloops
  cases hproceeds with
  | opening hstage => exact absurd hstage hopening
  | ended hnext =>
    have hand : (solo.active && move.next ≠ .ended) = true := hactive
    simp [hnext] at hand
  | wentBack hcommand hback hexecuted =>
    have hnot := hloops _ hexecuted
    simp [Beat.loops, Beat.note, Beat.executed?, hcommand, hback] at hnot
  | executes hexecutes =>
    have hregion := h.region_eq run.timed run.ordered hopens run.blocks hplace hexecutes.turn
      hunfinished hexecutes.command
    exact h.executes run.timed run.ordered hopens hplace hnow hexecutes hregion
  | stays hstays =>
    obtain ⟨index, hsession⟩ := hstays.session
    have hnone : move.events id = [] := by
      rw [Move.events, hstays.effects]
      rfl
    rw [← hnow] at hcheck
    have hcheck' := (hstays.late hcheck).1
    rw [hnow] at hcheck'
    rw [hnone]
    refine ⟨@after _ _ [] _ _ _ _ _ h ?_ ?_ ?_ ?_ ?_ h.within hstays.next hstays.stage hcheck'
      ((h.outset head hhead).trans_le (hstays.outset_le hcheck _ _ _)), List.forall_mem_nil _⟩
    · rw [hsession]
    · rw [hsession]
    · rw [hsession]
      exact h.unsought
    · rw [hsession]
      exact h.region
    · rw [hsession]

/-- A visit begins as the session comes to the first command of a region that it was not in. -/
theorem enter (run : Run True settings id story solo) {region : Region}
    (hregion : solo.session.program.regions[c.region]? = some region)
    (hentered : solo.session.applySeek.region ≠ some c.region)
    (hplace : solo.place = .ready head) (hnow : v.now = solo.now)
    (hexecutes : head.Executes v solo.session id move c head') :
    Visiting
      { region := c.region
        wait := region.wait
        entered := solo.clock
        first := solo.session.target
        leftOut := leftOut solo.session.program settings story }
      settings (((move.events id).map (Beat.note solo.clock v.ignoreLooping)).reverse ++ story) 0
      (solo.after move) := by
  have hhead := Place.head?_ready hplace
  have hplace' : (solo.after move).place.head? = some head' :=
    (move.next.head?_place solo.clock).trans hexecutes.next
  have hindex := run.ordered.turn hplace hexecutes.turn
  have htimed := run.timed.ready hplace
  obtain ⟨hcheck, hsettled, -⟩ := htimed.keeps.land hexecutes.turn hnow
  obtain ⟨hprogram, hstatus, hseek, hregion', hregionTime⟩ := hexecutes.fields
  rw [Session.execute_regionTime hregion, if_neg hentered, hnow] at hregionTime
  refine
    { region := hregion'
      unsought := hseek
      since := Nat.le_refl _
      regionTime := ?_
      within := ?_
      checked := fun head'' hhead'' => ?_
      outset := fun head'' hhead'' => ?_ }
  · have hrunning : decide (move.session.status = .paused) = false :=
      decide_eq_false (hstatus ▸ hexecutes.unpaused)
    have hnone : (solo.clock - (solo.clock + 0)) * 1000000 = 0 := by
      rw [Nat.add_zero, Nat.sub_self, Nat.zero_mul]
    show move.session.regionTime.Tracks region.wait (move.session.status = .paused) solo.now
      ((solo.clock - (solo.clock + 0)) * 1000000)
    rw [hregionTime, hrunning, hnone]
    exact solo.session.regionTime.tracks_restart region.wait solo.now
  · show solo.session.target < nextIndex move.session.program _
    rw [hprogram, hexecutes.nextIndex_eq]
    exact Nat.lt_succ_self _
  · rw [hplace'] at hhead''
    cases hhead''
    refine ⟨hexecutes.stage, ?_⟩
    unfold Playhead.Checked at hcheck
    rw [← hexecutes.lastCheck] at hcheck
    exact (Int.ofNat_le (n := solo.clock * 1000000)).1 (by omega)
  · rw [hplace'] at hhead''
    cases hhead''
    have hlower := hsettled.1
    show _ < head'.outset move.session.program settings _
    rw [hprogram, hexecutes.outset_eq hsettled htimed.ping hindex]
    show (solo.clock * 1000000 + leftOut solo.session.program settings story -
      move.session.program.waitBefore solo.session.target : Int) - 1000000 < _
    rw [hprogram]
    unfold Playhead.outset
    unfold Playhead.Checked at hcheck
    rw [hindex, hcheck]
    omega

end Playing

/-! ### Requests and time -/

theorem asked (h : Visiting visit settings story paused solo) {t : Session} {beat : Beat}
    (hprogram : t.program = solo.session.program) (hregion : t.region = solo.session.region)
    (hseek : t.pendingSeek = solo.session.pendingSeek)
    (hregionTime : t.regionTime.Tracks visit.wait (t.status = .paused) solo.now
      ((solo.clock - (visit.entered + paused)) * 1000000))
    (hquiet : beat.Quiet) :
    Visiting visit settings (beat :: story) paused { solo with session := t } := by
  have hnext : nextIndex t.program (beat :: story) = nextIndex solo.session.program story := by
    rw [hprogram]
    exact hquiet.nextIndex
  have hleftOut : leftOut t.program settings (beat :: story) =
      leftOut solo.session.program settings story := by
    rw [hprogram]
    have hnone : ∀ beat' ∈ [beat], beat'.executed? = none := fun beat' hbeat' =>
      List.mem_singleton.1 hbeat' ▸ hquiet.executed?
    exact leftOut_of_forall_executed? hnone
  refine
    { region := hregion.trans h.region
      unsought := hseek.trans h.unsought
      since := h.since
      regionTime := hregionTime
      within := hnext ▸ h.within
      checked := h.checked
      outset := fun head hhead => ?_ }
  show visit.outset t.program - 1000000 < head.lastCheck + head.budget +
    leftOut t.program settings (beat :: story) - t.program.waitBefore (nextIndex t.program _)
  rw [hleftOut, hnext, hprogram]
  exact h.outset head hhead

theorem passed (h : Visiting visit settings story paused solo) (time : Nat) :
    Visiting visit settings story
      (paused + if solo.session.status = .paused then max solo.clock time - solo.clock else 0)
      { solo with clock := max solo.clock time, place := solo.place.wakeAt time } := by
  have hle : solo.clock ≤ max solo.clock time := Nat.le_max_left _ _
  have hsince := h.since
  have hnow : solo.now ≤ max solo.clock time * 1000000 := Nat.mul_le_mul_right 1000000 hle
  have hplace := solo.place.head?_wakeAt time
  have hregionTime := h.regionTime.wait hnow
  refine
    { region := h.region
      unsought := h.unsought
      since := ?_
      regionTime := ?_
      within := h.within
      checked := fun head hhead => ?_
      outset := fun head hhead => h.outset head (hplace ▸ hhead) }
  · show visit.entered + (paused + _) ≤ max solo.clock time
    split <;> omega
  · have hplayed : (solo.clock - (visit.entered + paused)) * 1000000 +
        (if decide (solo.session.status = .paused) then 0 else
          max solo.clock time * 1000000 - solo.now) =
        (max solo.clock time - (visit.entered +
          (paused + if solo.session.status = .paused then max solo.clock time - solo.clock else 0))) *
            1000000 := by
      unfold Solo.now
      by_cases hpaused : solo.session.status = .paused
      · simp only [hpaused, decide_true, if_true]
        omega
      · simp only [hpaused, decide_false, Bool.false_eq_true, if_false]
        omega
    rw [hplayed] at hregionTime
    exact hregionTime
  · obtain ⟨hopening, hcheck⟩ := h.checked head (hplace ▸ hhead)
    exact ⟨hopening, hcheck.trans hnow⟩

theorem step (h : Visiting visit settings story paused solo)
    (run : Run True settings id story solo) (hstep : Step True settings id solo beats solo')
    (hopens : visit.Opens solo.session.program) (hactive : solo'.active = true)
    (hloops : ∀ beat ∈ beats, beat.loops solo.session.program = false)
    (hsought : ∀ beat ∈ beats, ∀ line, beat.happening ≠ .sought line)
    (hunfinished : visit.Unfinished solo'.clock
      (leftOut solo.session.program settings (beats.reverse ++ story))) :
    Visiting visit settings (beats.reverse ++ story)
        (paused + if solo.session.status = .paused then solo'.clock - solo.clock else 0) solo' ∧
      ∀ beat ∈ beats, beat.moves = false := by
  have hsame : (paused + if solo.session.status = .paused then solo.clock - solo.clock else 0) =
      paused := by
    rw [Nat.sub_self, ite_self, Nat.add_zero]
  cases hstep with
  | idle =>
    rw [hsame]
    exact ⟨h, List.forall_mem_nil _⟩
  | paused hactive' hpause =>
    obtain ⟨hplaying, rfl⟩ := Session.eq_of_pause? hpause
    have hregionTime := h.regionTime
    rw [hplaying] at hregionTime
    rw [hsame]
    refine ⟨h.asked rfl rfl rfl hregionTime.pause trivial, fun beat hbeat => ?_⟩
    rw [List.mem_singleton.1 hbeat]
    rfl
  | resumed hactive' hresume =>
    obtain ⟨hpaused, rfl⟩ := Session.eq_of_resume? hresume
    have hregionTime := h.regionTime
    rw [hpaused] at hregionTime
    rw [hsame]
    refine ⟨h.asked rfl rfl rfl hregionTime.resume trivial, fun beat hbeat => ?_⟩
    rw [List.mem_singleton.1 hbeat]
    rfl
  | sought => exact absurd rfl (hsought _ (List.mem_singleton_self _) _)
  | cancelled => cases hactive
  | @played head v hplace hnow hsettings =>
    have hleftOut := leftOut_le_append solo.session.program settings
      (((head.step v solo.session).events id).map
        (Beat.note solo.clock v.ignoreLooping)).reverse story
    rw [List.forall_mem_map] at hloops ⊢
    show Visiting visit settings _ (paused + if solo.session.status = .paused then
      solo.clock - solo.clock else 0) _ ∧ _
    rw [hsame]
    exact h.played run hopens hplace hnow hactive hloops
      (hunfinished.mono (Nat.le_refl _) hleftOut)
  | @passed time htime => exact ⟨h.passed time, List.forall_mem_nil _⟩

end Visiting

end Solo

end Story

end Choreo
