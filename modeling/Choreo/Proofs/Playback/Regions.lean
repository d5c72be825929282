import Choreo.Proofs.Playback.Order
import Choreo.Proofs.Script.Shape

/-!
# Entering regions

Which region a session is in, and which mode of countdowns it is in, can be read off its story. It
enters the region of the command that it comes to, unless it is there already, and a loop, a seek or
the end takes it out of any region. A countdown is planned as a region is entered and at no other time.
-/

namespace Choreo

/-! ## Reading a story -/

def Directive.mode? : Directive → Option Countdown
  | .countdown mode => some mode
  | _ => none

structure Bearings where
  region : Option Nat := none
  mode : Option Countdown := none
deriving DecidableEq

/-- Entering a region switches the countdowns back from being off to no mode at all. -/
def Bearings.note (program : Program) (ignoreLooping : Bool) (b : Bearings) : Event → Bearings
  | .reached _ (.entered r) => ⟨some r, if b.mode = some .off then none else b.mode⟩
  | .reached _ (.executed i) =>
    match program.commands[i]? with
    | some c =>
      ⟨if program.goesBack ignoreLooping c then none else b.region, c.directive.mode?.or b.mode⟩
    | none => b
  | .reached _ (.sought _) | .reached _ .ended => { b with region := none }
  | _ => b

def bearings (program : Program) : List Beat → Bearings
  | [] => {}
  | beat :: earlier =>
    match beat.happening with
    | .noted event => (bearings program earlier).note program beat.ignoreLooping event
    | _ => bearings program earlier

def Session.bearings (s : Session) : Bearings := ⟨s.region, s.countdown⟩

theorem bearings_notes (program : Program) (events : List Event) (time : Nat)
    (ignoreLooping : Bool) (story : List Beat) :
    bearings program ((events.map (Beat.note time ignoreLooping)).reverse ++ story) =
      events.foldl (Bearings.note program ignoreLooping) (bearings program story) := by
  induction events generalizing story with
  | nil => rfl
  | cons event events ih =>
    rw [Beat.notes_cons, ih, List.foldl_cons]
    rfl

theorem foldl_note_sent (program : Program) (ignoreLooping : Bool) (envelopes : List Envelope)
    (b : Bearings) :
    (envelopes.map Event.sent).foldl (Bearings.note program ignoreLooping) b = b := by
  induction envelopes with
  | nil => rfl
  | cons _ _ ih => exact ih

/-! ## Coming to a command -/

namespace Session

variable {s : Session} {c : Command} {v : Surroundings} {id : SessionId} {i : Nat}

theorem countdownAtEntry_bearings (s : Session) (c : Command) :
    (s.countdownAtEntry c).1.bearings =
      ⟨s.region, if s.countdown = some .off then none else s.countdown⟩ := by
  unfold countdownAtEntry bearings
  cases hmode : s.countdown with
  | none => simp [hmode]
  | some mode =>
    cases mode with
    | off => simp
    | _ =>
      simp only
      split
      · simp [hmode]
      · split
        · split <;> simp [hmode]
        · simp [hmode]

theorem arrive_bearings (s : Session) (i : Nat) (c : Command) (now : Instant) :
    (s.arrive i c now).1.bearings =
      if s.region = some c.region then s.bearings
      else ⟨some c.region, if s.countdown = some .off then none else s.countdown⟩ := by
  unfold arrive enter
  by_cases hregion : s.region = some c.region
  · simp [hregion, bearings]
  · simp only [hregion, if_false, if_true]
    exact countdownAtEntry_bearings _ c

theorem perform_countdown (s : Session) (settings : Settings) (c : Command) :
    (s.perform settings c).1.countdown = c.directive.mode?.or s.countdown := by
  unfold perform
  cases hdirective : c.directive with
  | _ => rfl

theorem perform_bearings (s : Session) (settings : Settings) (c : Command) :
    (s.perform settings c).1.bearings = ⟨s.region, c.directive.mode?.or s.countdown⟩ := by
  have hregion : (s.perform settings c).1.region = s.region := by
    obtain ⟨_, hperform⟩ := s.perform_fst settings c
    rw [hperform]
  rw [bearings, hregion, perform_countdown]

theorem execute_bearings (s : Session) (v : Surroundings) (i : Nat) (c : Command) :
    (s.execute v i c).1.bearings =
      ⟨some c.region, c.directive.mode?.or
        (if s.applySeek.region ≠ some c.region ∧ s.countdown = some .off then none
        else s.countdown)⟩ := by
  have harrive := s.applySeek.arrive_bearings i c v.now
  have hcountdown : s.applySeek.countdown = s.countdown := by rw [s.applySeek_eq]
  rw [hcountdown] at harrive
  simp only [execute]
  rw [perform_bearings]
  unfold bearings at harrive
  by_cases hregion : s.applySeek.region = some c.region
  · rw [if_pos hregion, hcountdown] at harrive
    rw [if_neg fun h => h.1 hregion]
    rw [(Bearings.mk.inj harrive).1, (Bearings.mk.inj harrive).2, hregion]
  · rw [if_neg hregion] at harrive
    rw [(Bearings.mk.inj harrive).1, (Bearings.mk.inj harrive).2]
    simp [hregion]

theorem foldl_note_arrivals (program : Program) (ignoreLooping : Bool) (s : Session)
    (id : SessionId) (c : Command) :
    (s.arrivals id c).foldl (Bearings.note program ignoreLooping) s.bearings =
      ⟨some c.region, if s.applySeek.region ≠ some c.region ∧ s.countdown = some .off then none
        else s.countdown⟩ := by
  have hsought : (s.pendingSeek.toList.map fun target => Event.reached id (.sought target)).foldl
      (Bearings.note program ignoreLooping) s.bearings =
        ⟨s.applySeek.region, s.countdown⟩ := by
    rw [s.applySeek_eq]
    cases s.pendingSeek <;> rfl
  rw [arrivals, List.foldl_append, hsought]
  by_cases hregion : s.applySeek.region = some c.region
  · simp [hregion]
  · simp [hregion, Bearings.note]

theorem foldl_note_execute (s : Session) (v : Surroundings) {i : Nat} {c : Command}
    (hcommand : s.program.commands[i]? = some c) (ignoreLooping : Bool) (id : SessionId)
    (envelopes : List Envelope) :
    (s.arrivals id c ++ .reached id (.executed i) :: envelopes.map Event.sent).foldl
        (Bearings.note s.program ignoreLooping) s.bearings =
      { (s.execute v i c).1.bearings with
        region := if s.program.goesBack ignoreLooping c then none else some c.region } := by
  rw [List.foldl_append, foldl_note_arrivals, List.foldl_cons, foldl_note_sent, execute_bearings]
  simp only [Bearings.note, hcommand]

end Session

namespace Playhead

variable {h : Playhead} {v : Surroundings} {s : Session}

theorem finish_bearings (s t : Session) (hcountdown : t.countdown = s.countdown) (id : SessionId)
    (ignoreLooping : Bool) :
    ((finish t).events id).foldl (Bearings.note s.program ignoreLooping) s.bearings =
      (finish t).session.bearings := by
  show (⟨none, s.countdown⟩ : Bearings) = ⟨none, t.countdown⟩
  rw [hcountdown]

/-- Whatever a playhead does to the region and the mode of its session is written down. -/
theorem step_bearings (h : Playhead) (v : Surroundings) (s : Session)
    (hflag : s.cancelled = true ↔ s.status = .cancelled) (id : SessionId) :
    ((h.step v s).events id).foldl (Bearings.note s.program v.ignoreLooping) s.bearings =
      (h.step v s).session.bearings := by
  have hexecuted (i : Nat) (c : Command) :
      { (s.execute v i c).1.bearings with region := some c.region } = (s.execute v i c).1.bearings := by
    rw [s.execute_bearings]
  have houtcome := h.step_outcome v s
  generalize h.step v s = move at houtcome
  cases houtcome with
  | refused hstage hbegin => exact finish_bearings s s rfl id v.ignoreLooping
  | began hstage hbegin =>
    obtain ⟨-, -, rfl⟩ := Session.eq_of_begin? hbegin
    rfl
  | stopped hstage hstop =>
    obtain ⟨_, _, rfl⟩ := Session.eq_of_stopped? hstop
    exact finish_bearings s _ rfl id v.ignoreLooping
  | ranOut hstage hstop hplaying hcommand =>
    have hcountdown : s.applySeek.countdown = s.countdown := by rw [s.applySeek_eq]
    have hevents : Move.events id ⟨s.applySeek.finish, s.landing ++ [.reach .ended], .ended⟩ =
        (s.pendingSeek.toList.map fun target => Event.reached id (.sought target)) ++
          [.reached id .ended] := by
      rw [Move.events, List.filterMap_append, Session.landing_events]
      rfl
    rw [hevents, List.foldl_append]
    show _ = (⟨none, s.applySeek.countdown⟩ : Bearings)
    rw [hcountdown]
    cases s.pendingSeek <;> rfl
  | wentBack hstage hstop hplaying hcommand hback =>
    rw [s.wentBack_events (live_of_stopped? hflag hstop), s.foldl_note_execute v hcommand,
      if_pos hback]
    rfl
  | wentOn hstage hstop hplaying hcommand hback hskips =>
    rw [s.wentOn_events (live_of_stopped? hflag hstop), s.foldl_note_execute v hcommand,
      if_neg hback]
    exact hexecuted _ _
  | held hstage hstop hplaying hcommand hskips =>
    rw [s.held_events (live_of_stopped? hflag hstop), s.foldl_note_execute v hcommand,
      if_neg (not_goesBack_of_not_skipsWait hskips)]
    exact hexecuted _ _
  | _ => rfl

theorem step_epoch (h : Playhead) (v : Surroundings) (s : Session) :
    (h.step v s).session.epoch = s.epoch := by
  have hexecute (i : Nat) (c : Command) : (s.execute v i c).1.epoch = s.epoch := by
    obtain ⟨_, _, hexecute⟩ := s.execute_fst v i c
    rw [hexecute]
  have houtcome := h.step_outcome v s
  generalize h.step v s = move at houtcome
  cases houtcome with
  | began hstage hbegin =>
    obtain ⟨-, -, rfl⟩ := Session.eq_of_begin? hbegin
    rfl
  | stopped hstage hstop =>
    obtain ⟨_, _, rfl⟩ := Session.eq_of_stopped? hstop
    rfl
  | ranOut hstage hstop hplaying hcommand =>
    show s.applySeek.epoch = s.epoch
    rw [s.applySeek_eq]
  | wentBack | wentOn | held => exact hexecute _ _
  | _ => rfl

end Playhead

/-! ## The run of a session -/

namespace Solo

variable {punctual : Prop} {settings : Settings} {id : SessionId} {story : List Beat} {solo : Solo}

theorem Run.shaped (run : Run punctual settings id story solo) : solo.session.program.Shaped := by
  induction run with
  | launched clock ignoreLooping start script lines =>
    obtain ⟨pendingSeek, epoch, hprepare⟩ := start.prepare_eq script lines
    rw [hprepare]
    exact Program.shaped_compile lines start.filter?
  | step run hstep ih =>
    rw [run.program_eq hstep]
    exact ih

/-- The story of a session tells which region and which mode it is in. -/
theorem Run.bearings_eq (run : Run punctual settings id story solo) :
    solo.session.bearings = bearings solo.session.program story := by
  induction run with
  | launched clock ignoreLooping start script lines =>
    obtain ⟨pendingSeek, epoch, hprepare⟩ := start.prepare_eq script lines
    rw [hprepare]
    rfl
  | @step story beats solo solo' run hstep ih =>
    rw [run.program_eq hstep]
    cases hstep with
    | idle | passed => exact ih
    | paused _ hpause =>
      obtain ⟨-, rfl⟩ := Session.eq_of_pause? hpause
      exact ih
    | resumed _ hresume =>
      obtain ⟨-, rfl⟩ := Session.eq_of_resume? hresume
      exact ih
    | sought _ hseek =>
      obtain ⟨_, -, -, rfl⟩ := Session.eq_of_seek? hseek
      exact ih
    | cancelled _ =>
      obtain ⟨cancelled, hcancel, -⟩ := solo.session.cancel?_getD
      rw [hcancel]
      exact ih
    | @played head v hplace hnow hsettings =>
      rw [bearings_notes, ← ih]
      exact (head.step_bearings v _ run.cancelled_iff id).symm

end Solo

end Choreo
