import Choreo.Proofs.Playback.Story

/-!
# How a step of a playhead goes on with the commands

The position that comes next is kept in the position of the session, in its pending seek and in the
stage of the playhead. A step of the playhead leaves it as it is, executes the command there, or ends
playing.
-/

namespace Choreo

variable {id : SessionId} {program : Program}

def Event.Quiet (event : Event) : Prop := (Beat.note 0 false event).Quiet

def Next.head? : Next → Option Playhead
  | .again head | .yield head | .sleep _ head => some head
  | .ended => none

/-- Whether the playhead is done with its command, apart from waiting. -/
def Playhead.waits (h : Playhead) : Bool :=
  match h.stage with
  | .wait | .waitRest | .pass => true
  | _ => false

def Session.upcoming (s : Session) (h : Playhead) : Nat :=
  s.pendingSeek.getD (if h.waits then s.index + 1 else s.index)

namespace Playhead

variable {h : Playhead} {v : Surroundings} {s t : Session} {c : Command}

inductive Progress (id : SessionId) (h : Playhead) (v : Surroundings) (s : Session) (move : Move) :
    Prop where
  | none {head : Playhead} (hnext : move.next.head? = some head) (hstage : head.stage ≠ .opening)
      (hprogram : move.session.program = s.program)
      (hevents : ∀ event ∈ move.events id, event.Quiet)
      (hupcoming : move.session.upcoming head = s.upcoming h)
  | executed {head : Playhead} {c : Command} (hturn : h.stage = .turn)
      (hnext : move.next.head? = some head) (hstage : head.stage ≠ .opening)
      (hprogram : move.session.program = s.program)
      (hcommand : s.program.commands[s.upcoming h]? = some c)
      (hevents : move.events id =
        s.arrivals id c ++ .reached id (.executed (s.upcoming h)) ::
          (c.envelopes v.settings.host id).map .sent)
      (hupcoming : move.session.upcoming head =
        s.program.following v.ignoreLooping (s.upcoming h))
  | ended {first : List Event} (hnext : move.next = .ended)
      (hprogram : move.session.program = s.program)
      (hfirst : ∀ event ∈ first, event.Quiet)
      (hevents : move.events id = first ++ [.reached id .ended])
      (hstatus : move.session.status = .cancelled ∨
        move.session.status = .stopped ∧ s.program.commands[s.upcoming h]? = none)

theorem Progress.keeps_program {move : Move} (hprogress : Progress id h v s move) :
    move.session.program = s.program := by
  cases hprogress with
  | none _ _ hprogram => exact hprogram
  | executed _ _ _ hprogram => exact hprogram
  | ended _ hprogram => exact hprogram

theorem upcoming_of_turn (hstage : h.stage = .turn) (s : Session) : s.upcoming h = s.target := by
  simp [Session.upcoming, waits, hstage, Session.target]

theorem upcoming_of_waits (hwaits : h.waits = true) (s : Session) :
    s.upcoming h = s.pendingSeek.getD (s.index + 1) := by
  simp [Session.upcoming, hwaits]

theorem head?_waiting (h : Playhead) (v : Surroundings) :
    ∃ head, (h.waiting v).head? = some head ∧ head.waits = true ∧ head.stage ≠ .opening := by
  unfold waiting
  split
  · exact ⟨_, rfl, rfl, by simp⟩
  · exact ⟨_, rfl, rfl, by simp⟩

theorem finish_progress (ht : t.status = .cancelled) (hprogram : t.program = s.program) :
    Progress id h v s (finish t) := by
  have hfirst : ∀ event ∈ ([] : List Event), event.Quiet := fun _ hevent => by cases hevent
  exact .ended rfl hprogram hfirst rfl (.inl ((finish_status t).2 ht))

theorem silent_progress {next : Next} {head : Playhead} (hnext : next.head? = some head)
    (hstage : head.stage ≠ .opening) (hprogram : t.program = s.program)
    (hupcoming : t.upcoming head = s.upcoming h) : Progress id h v s ⟨t, [], next⟩ := by
  refine .none hnext hstage hprogram ?_ hupcoming
  intro event hevent
  cases hevent

theorem waits_awake (hstage : h.stage = .wait ∨ h.stage = .waitRest) (stage : Stage)
    (hwaits : stage = .wait ∨ stage = .waitRest) :
    { h.awake v with stage }.waits = true ∧ h.waits = true := by
  rcases hwaits with rfl | rfl
  · rcases hstage with hstage | hstage <;> simp [waits, hstage]
  · rcases hstage with hstage | hstage <;> simp [waits, hstage]

theorem quiet_arrivals (s : Session) (id : SessionId) (c : Command) :
    ∀ event ∈ s.arrivals id c, event.Quiet := by
  intro event hevent
  rcases List.mem_append.1 hevent with hsought | hentered
  · obtain ⟨target, -, rfl⟩ := List.mem_map.1 hsought
    trivial
  · split at hentered
    · cases hentered
    · cases List.mem_singleton.1 hentered
      trivial

theorem following_of_goesBack {ignoreLooping : Bool} {i : Nat}
    (hcommand : program.commands[i]? = some c) (hback : program.goesBack ignoreLooping c) :
    program.following ignoreLooping i = 0 := by
  rw [Program.following, hcommand]
  exact if_pos hback

theorem following_of_not_goesBack {ignoreLooping : Bool} {i : Nat}
    (hcommand : program.commands[i]? = some c) (hback : ¬program.goesBack ignoreLooping c) :
    program.following ignoreLooping i = i + 1 := by
  rw [Program.following, hcommand]
  exact if_neg hback

theorem not_goesBack_of_not_skipsWait {ignoreLooping : Bool}
    (hskips : c.directive.skipsWait = false) : ¬program.goesBack ignoreLooping c := by
  rintro ⟨hloop, -⟩
  rw [hloop] at hskips
  cases hskips

theorem ranOut_progress (hstage : h.stage = .turn) (hlive : s.status ≠ .cancelled)
    (hcommand : s.program.commands[s.target]? = none) :
    Progress id h v s ⟨s.applySeek.finish, s.landing ++ [.reach .ended], .ended⟩ := by
  have happly := s.applySeek_eq
  have hstatus : s.applySeek.status ≠ .cancelled := by
    rw [happly]
    exact hlive
  have hfirst : ∀ event ∈ s.landing.filterMap (Effect.event? id s.applySeek.finish),
      event.Quiet := by
    intro event hevent
    rw [s.landing_events] at hevent
    obtain ⟨target, -, rfl⟩ := List.mem_map.1 hevent
    trivial
  refine .ended rfl ?_ hfirst ?_ (.inr ⟨if_neg hstatus, ?_⟩)
  · show s.applySeek.program = s.program
    rw [happly]
  · exact List.filterMap_append
  · rw [upcoming_of_turn hstage]
    exact hcommand

theorem wentBack_progress (hstage : h.stage = .turn) (hlive : s.status ≠ .cancelled)
    (hcommand : s.program.commands[s.target]? = some c)
    (hback : s.program.goesBack v.ignoreLooping c) :
    Progress id h v s
      ⟨(s.execute v s.target c).1.restart v.now, (s.execute v s.target c).2 ++ [.disarmAll],
        .again { h.land v.now s with stage := .turn }⟩ := by
  have hseek := s.execute_pendingSeek v s.target c
  rw [← upcoming_of_turn hstage s] at hcommand
  refine .executed (c := c) hstage rfl (by simp) (s.execute_program v s.target c) hcommand ?_ ?_
  · rw [s.wentBack_events hlive, upcoming_of_turn hstage]
  · rw [following_of_goesBack hcommand hback]
    simp [Session.upcoming, Session.restart, waits, hseek]

theorem wentOn_progress (hstage : h.stage = .turn) (hlive : s.status ≠ .cancelled)
    (hcommand : s.program.commands[s.target]? = some c)
    (hback : ¬s.program.goesBack v.ignoreLooping c) :
    Progress id h v s
      ⟨(s.execute v s.target c).1.advance, (s.execute v s.target c).2,
        .again { h.land v.now s with stage := .turn }⟩ := by
  have hseek := s.execute_pendingSeek v s.target c
  have hindex := s.execute_index v s.target c
  rw [← upcoming_of_turn hstage s] at hcommand
  refine .executed (c := c) hstage rfl (by simp) (s.execute_program v s.target c) hcommand ?_ ?_
  · rw [s.wentOn_events hlive, upcoming_of_turn hstage]
  · rw [following_of_not_goesBack hcommand hback, upcoming_of_turn hstage]
    simp [Session.upcoming, Session.advance, waits, hseek, hindex]

theorem held_progress (hstage : h.stage = .turn) (hlive : s.status ≠ .cancelled)
    (hcommand : s.program.commands[s.target]? = some c)
    (hback : ¬s.program.goesBack v.ignoreLooping c) (h' : Playhead) :
    Progress id h v s
      ⟨{ (s.execute v s.target c).1 with pingOffset := .zero }, (s.execute v s.target c).2,
        h'.waiting v⟩ := by
  have hseek := s.execute_pendingSeek v s.target c
  have hindex := s.execute_index v s.target c
  obtain ⟨head, hnext, hwaits, hhead⟩ := h'.head?_waiting v
  rw [← upcoming_of_turn hstage s] at hcommand
  refine .executed (c := c) hstage hnext hhead (s.execute_program v s.target c) hcommand ?_ ?_
  · rw [s.held_events hlive, upcoming_of_turn hstage]
  · rw [following_of_not_goesBack hcommand hback, upcoming_of_turn hstage]
    simp [Session.upcoming, hwaits, hseek, hindex]

theorem step_progress (id : SessionId) (h : Playhead) (v : Surroundings) (s : Session)
    (hflag : s.cancelled = true ↔ s.status = .cancelled)
    (hopening : h.stage = .opening → s.status = .stopped ∨ s.status = .cancelled) :
    Progress id h v s (h.step v s) := by
  have houtcome := h.step_outcome v s
  generalize h.step v s = move at houtcome
  cases houtcome with
  | refused hstage hbegin =>
    exact finish_progress (cancelled_of_refused hflag (hopening hstage) hbegin) rfl
  | began hstage hbegin =>
    obtain ⟨-, -, rfl⟩ := Session.eq_of_begin? hbegin
    refine .none rfl (by simp) rfl ?_ ?_
    · intro event hevent
      cases List.mem_singleton.1 hevent
      trivial
    · simp [Session.upcoming, waits, hstage]
  | stopped hstage hstop =>
    have hcancelled := cancelled_of_stopped? hflag hstop
    obtain ⟨_, _, rfl⟩ := Session.eq_of_stopped? hstop
    exact finish_progress hcancelled rfl
  | resting hstage | rested hstage =>
    apply silent_progress rfl (by simp) rfl
    simp [Session.upcoming, waits, hstage]
  | ranOut hstage hstop hplaying hcommand =>
    exact ranOut_progress hstage (live_of_stopped? hflag hstop) hcommand
  | wentBack hstage hstop hplaying hcommand hback =>
    exact wentBack_progress hstage (live_of_stopped? hflag hstop) hcommand hback
  | wentOn hstage hstop hplaying hcommand hback hskips =>
    exact wentOn_progress hstage (live_of_stopped? hflag hstop) hcommand hback
  | @held c hstage hstop hplaying hcommand hskips =>
    have hback : ¬s.program.goesBack v.ignoreLooping c := not_goesBack_of_not_skipsWait hskips
    exact held_progress hstage (live_of_stopped? hflag hstop) hcommand hback _
  | cut hstage hstop hseek =>
    apply silent_progress rfl (by simp) rfl
    obtain ⟨target, htarget⟩ := Option.isSome_iff_exists.1 hseek
    simp [Session.upcoming, htarget]
  | suspended hstage hstop hseek hpaused =>
    obtain ⟨hafter, hbefore⟩ := waits_awake (v := v) hstage .waitRest (.inr rfl)
    apply silent_progress rfl (by simp) rfl
    rw [upcoming_of_waits hafter, upcoming_of_waits hbefore]
  | waited hstage hstop hseek hplaying hbudget =>
    obtain ⟨hafter, hbefore⟩ := waits_awake (v := v) hstage .wait (.inl rfl)
    apply silent_progress rfl (by simp) rfl
    rw [upcoming_of_waits hafter, upcoming_of_waits hbefore]
  | done hstage hstop hseek hplaying hbudget =>
    obtain ⟨-, hbefore⟩ := waits_awake (v := v) hstage .wait (.inl rfl)
    refine silent_progress rfl (by simp) rfl ?_
    rw [upcoming_of_waits hbefore]
    simp [Session.upcoming, Session.advance, waits]
  | passed hstage =>
    have hbefore : h.waits = true := by simp [waits, hstage]
    refine silent_progress rfl (by simp) rfl ?_
    rw [upcoming_of_waits hbefore]
    simp [Session.upcoming, Session.advance, waits]

end Playhead

end Choreo
