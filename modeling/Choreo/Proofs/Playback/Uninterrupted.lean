import Choreo.Proofs.Playback.Coherence
import Choreo.Proofs.Playback.Unbroken
import Choreo.Proofs.Seconds

/-!
# How long playing takes

Where nothing gets in the way of a session, it executes each command in the very millisecond in which
the commands before it are over, and so leaves its regions behind and ends. How much of it is shown as
played is a matter of the clock and of what its program says about its length alone.
-/

namespace Choreo

/-- A session that was neither paused nor cancelled, and of which no line was asked for, not even in
launching it. -/
structure Session.Uninterrupted (s : Session) (story : List Beat) : Prop where
  unpaused : ∀ beat ∈ story, beat.pauses = false
  unsought : s.epoch = 0
  alive : s.status ≠ .cancelled

instance (s : Session) (story : List Beat) : Decidable (s.Uninterrupted story) :=
  decidable_of_iff ((∀ beat ∈ story, beat.pauses = false) ∧ s.epoch = 0 ∧ s.status ≠ .cancelled)
    ⟨fun h => ⟨h.1, h.2.1, h.2.2⟩, fun h => ⟨h.unpaused, h.unsought, h.alive⟩⟩

theorem Session.execute_scriptTime (s : Session) (v : Surroundings) (i : Nat) (c : Command) :
    (s.execute v i c).1.scriptTime = s.scriptTime := by
  obtain ⟨_, _, hexecute⟩ := s.execute_fst v i c
  rw [hexecute]

section Story

variable {settings : Settings} {id : SessionId} {story beats : List Beat} {b : Nat} {c : Command}

/-! ## An uninterrupted session -/

namespace Solo

variable {solo solo' : Solo}

theorem Step.uninterrupted (hstep : Step True settings id solo beats solo')
    (h : solo'.session.Uninterrupted (beats.reverse ++ story)) :
    solo.session.Uninterrupted story := by
  refine ⟨fun beat hbeat => h.unpaused beat (List.mem_append_right _ hbeat), ?_, ?_⟩
  · have hunsought := h.unsought
    cases hstep with
    | idle | passed => exact hunsought
    | paused hactive hpause =>
      obtain ⟨-, rfl⟩ := Session.eq_of_pause? hpause
      exact hunsought
    | resumed hactive hresume =>
      obtain ⟨-, rfl⟩ := Session.eq_of_resume? hresume
      exact hunsought
    | sought hactive hseek =>
      obtain ⟨target, -, -, rfl⟩ := Session.eq_of_seek? hseek
      cases hunsought
    | cancelled hactive =>
      obtain ⟨cancelled, hcancel, -⟩ := solo.session.cancel?_getD
      rw [hcancel] at hunsought
      exact hunsought
    | @played head v hplace hnow hsettings =>
      exact (head.step_epoch v solo.session).symm.trans hunsought
  · exact fun hcancelled => h.alive (hstep.cancelled_stays hcancelled)

structure OnCourse (settings : Settings) (story : List Beat) (solo : Solo) : Prop where
  unbroken : Unbroken solo.session.program settings story
  ahead : solo.session.pendingSeek = none
  awake : solo.session.status ≠ .paused
  opening : ∀ head, solo.place.head? = some head →
    (head.stage = .opening ↔ begunAt? story = none)
  scriptTime : solo.session.scriptTime =
    { total := solo.session.program.totalWait
      startedAt := (begunAt? story).map (· * 1000000) }
  active : solo.place.head? ≠ none → solo.active = true
  ended : solo.place.head? = none → ∃ beat ∈ story, beat.ends = true

namespace OnCourse

theorem prepare_of_unsought {start : Start} {script : ScriptId} {lines : List String}
    (hunsought : (start.prepare script lines).epoch = 0) :
    start.prepare script lines =
        Session.create script start.filter? (.compile lines start.filter?) ∧
      start.first (.compile lines start.filter?) = 0 := by
  cases start with
  | top filter => exact ⟨rfl, rfl⟩
  | line number =>
    have hprogram : (Session.create script (Start.line number).filter?
      (.compile lines (Start.line number).filter?)).program =
        .compile lines (Start.line number).filter? := rfl
    simp only [Start.prepare, Session.seek?, hprogram] at hunsought ⊢
    rw [Start.first]
    cases htarget : (Program.compile lines (Start.line number).filter?).positionOfLine? number with
    | none => exact ⟨rfl, rfl⟩
    | some target =>
      rw [htarget] at hunsought
      cases hunsought

theorem launched (clock : Nat) (ignoreLooping : Bool) (start : Start) (script : ScriptId)
    (lines : List String) (hunsought : (start.prepare script lines).epoch = 0) :
    OnCourse settings [⟨clock, ignoreLooping, .launched start⟩]
      ⟨clock, start.prepare script lines, true, .ready { lastCheck := clock * 1000000 }⟩ := by
  obtain ⟨hprepare, hfirst⟩ := prepare_of_unsought hunsought
  rw [hprepare]
  refine
    { unbroken := .launched clock ignoreLooping hfirst
      ahead := rfl
      awake := by simp [Session.create]
      opening := ?_
      scriptTime := rfl
      active := fun _ => rfl
      ended := nofun }
  intro head hhead
  cases hhead
  exact ⟨fun _ => rfl, fun _ => rfl⟩

theorem begun (h : OnCourse settings story solo) {head : Playhead}
    (hhead : solo.place.head? = some head) (hstage : head.stage ≠ .opening) :
    ∃ b, begunAt? story = some b := by
  cases hbegun : begunAt? story with
  | none => exact absurd ((h.opening head hhead).2 hbegun) hstage
  | some b => exact ⟨b, rfl⟩

theorem goesOn (h : OnCourse settings story solo) {head head' : Playhead} {move : Move}
    (hhead : solo.place.head? = some head) (hstage : head.stage ≠ .opening)
    (hunbroken : Unbroken solo.session.program settings (beats ++ story))
    (hbegun : begunAt? (beats ++ story) = begunAt? story)
    (hprogram : move.session.program = solo.session.program)
    (hseek : move.session.pendingSeek = none)
    (hstatus : move.session.status = solo.session.status)
    (htime : move.session.scriptTime = solo.session.scriptTime)
    (hnext : move.next.head? = some head') (hstage' : head'.stage ≠ .opening) :
    OnCourse settings (beats ++ story) (solo.after move) := by
  have hplace : (solo.after move).place.head? = some head' :=
    (move.next.head?_place solo.clock).trans hnext
  refine
    { unbroken := hprogram ▸ hunbroken
      ahead := hseek
      awake := fun hpaused => h.awake (hstatus.symm.trans hpaused)
      opening := ?_
      scriptTime := ?_
      active := fun _ => ?_
      ended := ?_ }
  · intro head'' hhead''
    obtain ⟨b, hsome⟩ := h.begun hhead hstage
    rw [hplace] at hhead''
    cases hhead''
    rw [hbegun, hsome]
    exact ⟨fun hopening => absurd hopening hstage', nofun⟩
  · show move.session.scriptTime = { total := move.session.program.totalWait, startedAt := _ }
    rw [htime, hprogram, hbegun]
    exact h.scriptTime
  · have hgoes : move.next ≠ .ended := by
      intro hended
      rw [hended] at hnext
      cases hnext
    have hactive := h.active (by rw [hhead]; exact Option.some_ne_none head)
    simp [Solo.after, hactive, hgoes]
  · intro hgone
    rw [hplace] at hgone
    cases hgone

theorem silent (h : OnCourse settings story solo) {head head' : Playhead} {t : Session}
    {next : Next} (hhead : solo.place.head? = some head) (hstage : head.stage ≠ .opening)
    (hprogram : t.program = solo.session.program) (hseek : t.pendingSeek = none)
    (hstatus : t.status = solo.session.status) (htime : t.scriptTime = solo.session.scriptTime)
    (hnext : next.head? = some head') (hstage' : head'.stage ≠ .opening) :
    OnCourse settings story (solo.after ⟨t, [], next⟩) :=
  @goesOn settings story [] solo h head head' ⟨t, [], next⟩ hhead hstage h.unbroken rfl hprogram
    hseek hstatus htime hnext hstage'

/-- The playhead comes to a command, or to the end, when everything before it is over. -/
theorem clock_eq (h : OnCourse settings story solo) (htimed : Timed settings story solo)
    {head : Playhead} (hplace : solo.place = .ready head) (hstage : head.stage = .turn)
    (hbegun : begunAt? story = some b) :
    solo.clock = overAt b
      (solo.session.program.heldBefore (nextIndex solo.session.program story)) := by
  have hkeeps := (htimed.ready hplace).keeps
  rw [h.unbroken.account_eq hbegun] at hkeeps
  unfold Playhead.Keeps at hkeeps
  simp only [hstage] at hkeeps
  obtain ⟨hchecked, hsettled⟩ := hkeeps
  exact (hsettled h.ahead).1.clock_eq_due (hsettled h.ahead).2 hchecked rfl

theorem executed (h : OnCourse settings story solo) (htimed : Timed settings story solo)
    (hordered : Ordered settings id story solo) (hplain : solo.session.program.Plain)
    (hblocks : solo.session.program.Blocks) {head head' : Playhead} {move : Move}
    {envelopes : List Envelope} (hplace : solo.place = .ready head) (hstage : head.stage = .turn)
    (hcommand : solo.session.program.commands[solo.session.target]? = some c)
    (hprogram : move.session.program = solo.session.program)
    (hseek : move.session.pendingSeek = none)
    (hstatus : move.session.status = solo.session.status)
    (htime : move.session.scriptTime = solo.session.scriptTime)
    (hnext : move.next.head? = some head') (hstage' : head'.stage ≠ .opening)
    (hevents : move.events id = solo.session.arrivals id c ++
      .reached id (.executed solo.session.target) :: envelopes.map Event.sent)
    (ignoreLooping : Bool) :
    OnCourse settings
      (((move.events id).map (Beat.note solo.clock ignoreLooping)).reverse ++ story)
      (solo.after move) := by
  have hhead := Place.head?_ready hplace
  have hopening : head.stage ≠ .opening := by
    rw [hstage]
    decide
  obtain ⟨b, hbegun⟩ := h.begun hhead hopening
  have hindex := (hordered.turn hplace hstage).symm
  have hclock := h.clock_eq htimed hplace hstage hbegun
  rw [← hindex] at hclock
  refine h.goesOn hhead hopening ?_ ?_ hprogram hseek hstatus htime hnext hstage'
  · rw [hevents]
    exact h.unbroken.execute hplain hblocks hbegun h.ahead hindex hcommand hclock ignoreLooping id
      envelopes
  · rw [hevents, begunAt?_notes, begins_execute]
    rfl

theorem ranOut (h : OnCourse settings story solo) (htimed : Timed settings story solo)
    (hordered : Ordered settings id story solo) (hblocks : solo.session.program.Blocks)
    {head : Playhead}
    (hplace : solo.place = .ready head) (hstage : head.stage = .turn)
    (hcommand : solo.session.program.commands[solo.session.target]? = none)
    (ignoreLooping : Bool) :
    OnCourse settings (Beat.note solo.clock ignoreLooping (.reached id .ended) :: story)
      (solo.after ⟨solo.session.applySeek.finish, solo.session.landing ++ [.reach .ended],
        .ended⟩) := by
  have hhead := Place.head?_ready hplace
  obtain ⟨b, hbegun⟩ := h.begun hhead (by rw [hstage]; decide)
  have hindex := (hordered.turn hplace hstage).symm
  have hclock := h.clock_eq htimed hplace hstage hbegun
  rw [hindex] at hcommand
  have hstay : solo.session.applySeek = solo.session := by
    rw [Session.applySeek, h.ahead]
  rw [hstay]
  refine
    { unbroken := h.unbroken.finish hblocks hbegun (List.getElem?_eq_none_iff.1 hcommand) hclock
        ignoreLooping id
      ahead := h.ahead
      awake := ?_
      opening := nofun
      scriptTime := h.scriptTime
      active := fun hplace => absurd rfl hplace
      ended := fun _ => ⟨_, List.mem_cons_self, rfl⟩ }
  show (if solo.session.status = .cancelled then Status.cancelled else .stopped) ≠ .paused
  split <;> decide

theorem began (h : OnCourse settings story solo) {head : Playhead} {v : Surroundings} {t : Session}
    (hhead : solo.place.head? = some head) (hstage : head.stage = .opening)
    (hbegin : solo.session.begin? v.now = some t) (hnow : v.now = solo.now) (ignoreLooping : Bool)
    (id : SessionId) :
    OnCourse settings (.note solo.clock ignoreLooping (.reached id .began) :: story)
      (solo.after ⟨t, [.reach .began], .again { head with lastCheck := v.now, stage := .turn }⟩) := by
  obtain ⟨-, -, rfl⟩ := Session.eq_of_begin? hbegin
  have hbegun := (h.opening head hhead).1 hstage
  refine
    { unbroken := h.unbroken.began hbegun solo.clock ignoreLooping id
      ahead := h.ahead
      awake := by simp [Solo.after]
      opening := ?_
      scriptTime := ?_
      active := ?_
      ended := fun hgone => by cases hgone }
  · intro head' hhead'
    cases hhead'
    refine ⟨fun hopening => ?_, fun hnone => ?_⟩
    · cases hopening
    · cases hnone
  · show solo.session.scriptTime.start v.now = _
    rw [h.scriptTime, hnow]
    rfl
  · intro _
    have hactive := h.active (by rw [hhead]; exact Option.some_ne_none head)
    simp [Solo.after, hactive]

theorem played (h : OnCourse settings story solo) (htimed : Timed settings story solo)
    (hordered : Ordered settings id story solo)
    (hflag : solo.session.cancelled = true ↔ solo.session.status = .cancelled)
    (hplain : solo.session.program.Plain) (hblocks : solo.session.program.Blocks)
    {head : Playhead} {v : Surroundings} (hplace : solo.place = .ready head) (hnow : v.now = solo.now)
    (halive : (head.step v solo.session).session.status ≠ .cancelled) :
    OnCourse settings
      ((((head.step v solo.session).events id).map
        (Beat.note solo.clock v.ignoreLooping)).reverse ++ story)
      (solo.after (head.step v solo.session)) := by
  have hhead := Place.head?_ready hplace
  have hlive : solo.session.status ≠ .cancelled := fun hcancelled =>
    halive (Playhead.step_status_of_cancelled hcancelled)
  have hseek := h.ahead
  have houtcome := head.step_outcome v solo.session
  generalize head.step v solo.session = move at houtcome halive
  cases houtcome with
  | refused hstage hbegin =>
    have hopening := hordered.opening head hhead hstage
    exact absurd (Playhead.cancelled_of_refused hflag hopening hbegin) hlive
  | began hstage hbegin =>
    exact h.began hhead hstage hbegin hnow v.ignoreLooping id
  | stopped hstage hstop =>
    have hcancelled := Playhead.cancelled_of_stopped? hflag hstop
    exact absurd ((Playhead.finish_status _).2 hcancelled) halive
  | ranOut hstage hstop hplaying hcommand =>
    have hevents : Move.events id ⟨solo.session.applySeek.finish,
        solo.session.landing ++ [.reach .ended], .ended⟩ = [.reached id .ended] := by
      rw [Session.landing, hseek]
      rfl
    rw [hevents]
    exact h.ranOut htimed hordered hblocks hplace hstage hcommand v.ignoreLooping
  | @wentBack c hstage hstop hplaying hcommand hback =>
    exact absurd hback.1 (hplain.noLoop c (List.mem_of_getElem? hcommand))
  | @wentOn c hstage hstop hplaying hcommand hback hskips =>
    exact h.executed htimed hordered hplain hblocks hplace hstage hcommand
      (solo.session.execute_program v _ c) (solo.session.execute_pendingSeek v _ c)
      (solo.session.execute_status v _ c) (solo.session.execute_scriptTime v _ c) rfl (by simp)
      (solo.session.wentOn_events hlive v _ c id _) v.ignoreLooping
  | @held c hstage hstop hplaying hcommand hskips =>
    obtain ⟨head', hnext, -, hstage'⟩ :=
      ((head.land v.now solo.session).charge (c.wait - solo.session.pingOffset)).head?_waiting v
    exact h.executed htimed hordered hplain hblocks hplace hstage hcommand
      (solo.session.execute_program v _ c) (solo.session.execute_pendingSeek v _ c)
      (solo.session.execute_status v _ c) (solo.session.execute_scriptTime v _ c) hnext hstage'
      (solo.session.held_events hlive v _ c id _) v.ignoreLooping
  | resting hstage | rested hstage | passed hstage =>
    exact h.silent hhead (by rw [hstage]; decide) rfl hseek rfl rfl rfl (by simp)
  | cut hstage | suspended hstage | waited hstage | done hstage =>
    have hstage' : head.stage ≠ .opening := by
      rcases hstage with hwait | hrest
      · rw [hwait]
        decide
      · rw [hrest]
        decide
    exact h.silent hhead hstage' rfl hseek rfl rfl rfl (by simp)

end OnCourse

theorem Run.onCourse (run : Run True settings id story solo) (hplain : solo.session.program.Plain)
    (hcalm : solo.session.Uninterrupted story) : OnCourse settings story solo := by
  induction run with
  | launched clock ignoreLooping start script lines =>
    exact .launched clock ignoreLooping start script lines hcalm.unsought
  | @step story beats solo solo' run hstep ih =>
    rw [run.program_eq hstep] at hplain
    have h := ih hplain (hstep.uninterrupted hcalm)
    cases hstep with
    | idle => exact h
    | paused hactive hpause =>
      have hpauses := hcalm.unpaused _ (List.mem_append_left _ List.mem_cons_self)
      cases hpauses
    | resumed hactive hresume => exact absurd (Session.eq_of_resume? hresume).1 h.awake
    | sought hactive hseek =>
      obtain ⟨target, -, -, rfl⟩ := Session.eq_of_seek? hseek
      cases hcalm.unsought
    | cancelled hactive =>
      obtain ⟨cancelled, hcancel, -⟩ := solo.session.cancel?_getD
      exact absurd (by rw [hcancel]) hcalm.alive
    | played hplace hnow hsettings =>
      exact h.played run.timed run.ordered run.cancelled_iff hplain run.blocks hplace hnow
        hcalm.alive
    | @passed time htime =>
      have hplace := solo.place.head?_wakeAt time
      exact
        { unbroken := h.unbroken
          ahead := h.ahead
          awake := h.awake
          opening := fun head hhead => h.opening head (hplace ▸ hhead)
          scriptTime := h.scriptTime
          active := fun hthere => h.active (hplace ▸ hthere)
          ended := fun hgone => h.ended (hplace ▸ hgone) }

namespace OnCourse

/-- A playhead that sleeps wakes up no later than the command that it sleeps for is over. -/
theorem lt_of_asleep (h : OnCourse settings story solo) (htimed : Timed settings story solo)
    (hbegun : begunAt? story = some b) {wake : Nat} {head : Playhead}
    (hplace : solo.place = .asleep wake head) (hwake : solo.clock < wake) :
    solo.clock < overAt b
      (solo.session.program.heldBefore (nextIndex solo.session.program story)) := by
  have hhead : solo.place.head? = some head := by
    rw [hplace]
    rfl
  have hkeeps := (htimed head hhead).2.keeps
  have hdue : solo.place.due solo.clock = wake := by
    rw [hplace]
    rfl
  rw [hdue, h.unbroken.account_eq hbegun] at hkeeps
  unfold Playhead.Keeps at hkeeps
  cases hstage : head.stage with
  | opening =>
    have hnone := (h.opening head hhead).1 hstage
    rw [hbegun] at hnone
    cases hnone
  | turn =>
    simp only [hstage] at hkeeps
    obtain ⟨hchecked, hsettled⟩ := hkeeps
    rw [(hsettled h.ahead).1.clock_eq_due (hsettled h.ahead).2 hchecked rfl] at hwake
    exact hwake
  | pass =>
    simp only [hstage] at hkeeps
    obtain ⟨hchecked, hsettled, hagrees⟩ := hkeeps
    rw [hsettled.clock_eq_due hagrees hchecked rfl] at hwake
    exact hwake
  | wait =>
    simp only [hstage] at hkeeps
    obtain ⟨-, hbudget, hagrees⟩ := hkeeps
    have hsum := hagrees rfl
    unfold overAt
    simp only at hsum
    omega
  | rest | waitRest =>
    simp only [hstage] at hkeeps
    cases hkeeps.1

section Still

variable (h : OnCourse settings story solo) (htimed : Timed settings story solo)
  (hready : ∀ head, solo.place ≠ .ready head)
  (hasleep : ∀ wake head, solo.place = .asleep wake head → solo.clock < wake)
  (htimes : ∀ beat ∈ story, beat.time ≤ solo.clock)

include h htimed hready hasleep

/-- With nothing left to do, a session that has not ended is in the midst of a wait. -/
theorem lt_of_not_ended (hbegun : begunAt? story = some b)
    (hplaying : ∀ beat ∈ story, beat.ends = false) :
    solo.clock < overAt b
      (solo.session.program.heldBefore (nextIndex solo.session.program story)) := by
  cases hplace : solo.place with
  | ready head => exact absurd hplace (hready head)
  | asleep wake head => exact h.lt_of_asleep htimed hbegun hplace (hasleep wake head hplace)
  | gone =>
    obtain ⟨beat, hbeat, hends⟩ := h.ended (by rw [hplace]; rfl)
    rw [hplaying beat hbeat] at hends
    cases hends

include htimes

theorem left_iff (hbegun : begunAt? story = some b) (r : Nat) :
    (leftAt? solo.session.program r story).isSome = true ↔
      overAt b (solo.session.program.heldThrough r) ≤ solo.clock := by
  constructor
  · intro hsome
    obtain ⟨time, hleft⟩ := Option.isSome_iff_exists.1 hsome
    obtain ⟨beat, hbeat, -, rfl⟩ := exists_of_leftAt? hleft
    have htime := h.unbroken.left r beat.time hleft
    rw [hbegun] at htime
    exact (Option.some.inj htime).trans_le (htimes beat hbeat)
  · intro hover
    by_contra hnot
    have hleft := Option.not_isSome_iff_eq_none.1 hnot
    have hplaying : ∀ beat ∈ story, beat.ends = false := fun beat hbeat =>
      (Bool.or_eq_false_iff.1 (not_beyond_of_leftAt? hleft hbeat)).1
    have hclock := h.lt_of_not_ended htimed hready hasleep hbegun hplaying
    have hle := Program.heldBefore_le_heldThrough (h.unbroken.region_le hleft)
    unfold overAt at hclock hover
    omega

theorem ended_iff (hbegun : begunAt? story = some b) :
    (endedAt? story).isSome = true ↔
      overAt b solo.session.program.heldInAll ≤ solo.clock := by
  constructor
  · intro hsome
    obtain ⟨time, hended⟩ := Option.isSome_iff_exists.1 hsome
    obtain ⟨beat, hfind, -⟩ := Option.map_eq_some_iff.1 hended
    have hbeat := List.mem_of_find?_eq_some hfind
    have htime := h.unbroken.ended beat hbeat (List.find?_some hfind)
    rw [hbegun] at htime
    exact (Option.some.inj htime).trans_le (htimes beat hbeat)
  · intro hover
    by_contra hnot
    have hplaying := (endedAt?_eq_none_iff story).1 (Option.not_isSome_iff_eq_none.1 hnot)
    have hclock := h.lt_of_not_ended htimed hready hasleep hbegun hplaying
    have hle := solo.session.program.heldBefore_le (nextIndex solo.session.program story)
    unfold overAt at hclock hover
    omega

end Still

/-! ### What is shown as played -/

theorem elapsed_eq (h : OnCourse settings story solo) (hbegun : begunAt? story = some b) :
    (solo.session.scriptTime.elapsed solo.now).nanos =
      min ((solo.clock - b) * 1000000) maxNanos := by
  rw [h.scriptTime, hbegun]
  show (Duration.between (b * 1000000) (solo.clock * 1000000) - .zero).nanos = _
  rw [Duration.nanos_sub, Duration.nanos_between, Duration.nanos_zero, Nat.sub_zero,
    Nat.sub_mul]

/-- What a program says about its length has passed when it is shown as played. -/
theorem total_le_iff (h : OnCourse settings story solo) (hbegun : begunAt? story = some b)
    (hle : b ≤ solo.clock) :
    solo.session.program.totalWait.nanos ≤ (solo.session.scriptTime.elapsed solo.now).nanos ↔
      overAt b solo.session.program.totalWait.nanos ≤ solo.clock := by
  have hlongest := solo.session.program.totalWait.nanos_le
  rw [h.elapsed_eq hbegun]
  unfold overAt
  omega

end OnCourse

end Solo

end Story

/-! ## The runs of playback -/

namespace Playback

variable {settings : Settings} {id : SessionId} {history : List Occurrence} {p : Playback}
variable {s : Session} {solo : Solo}

/-- What a session plays for, and what it shows of it, if it began in some millisecond. -/
structure Lasts (p : Playback) (id : SessionId) (s : Session) (story : List Beat) (began : Nat) :
    Prop where
  left : ∀ r time, leftAt? s.program r story = some time →
    time = overAt began (s.program.heldThrough r)
  ended : ∀ time, endedAt? story = some time → time = overAt began s.program.heldInAll
  active : p.isActive id = true ↔ endedAt? story = none
  leaves : p.next? p.clock = none → ∀ r,
    ((leftAt? s.program r story).isSome = true ↔ overAt began (s.program.heldThrough r) ≤ p.clock)
  ends : p.next? p.clock = none →
    ((endedAt? story).isSome = true ↔ overAt began s.program.heldInAll ≤ p.clock)
  remaining : s.scriptTime.remaining p.now = .zero ↔
    overAt began s.program.totalWait.nanos ≤ p.clock
  complete : overAt began s.program.totalWait.nanos ≤ p.clock → s.scriptTime.progress p.now = 1
  incomplete : s.program.totalWait.nanos ≤ 1000000000000000 →
    p.clock < overAt began s.program.totalWait.nanos → s.scriptTime.progress p.now < 1

/-- With nothing left to do, the playhead of a session sleeps, or it is gone. -/
theorem Shows.still (h : p.Shows id solo) (hstill : p.next? p.clock = none) :
    (∀ head, solo.place ≠ .ready head) ∧
      ∀ wake head, solo.place = .asleep wake head → solo.clock < wake := by
  obtain ⟨hready, hsleepers⟩ := onTime_of_next?_eq_none hstill
  have hplaces := h.places
  unfold Playback.places at hplaces
  rw [hready, List.filterMap_nil, List.map_nil, List.nil_append] at hplaces
  have hasleep {place : Place} (hplace : solo.place.toList = [place]) :
      ∃ sleeper ∈ p.sleepers, ∃ head, place = .asleep sleeper.wake head := by
    rw [hplace] at hplaces
    have hmem : place ∈ p.sleepers.filterMap fun sleeper =>
        (sleeper.task.head? id).map (Place.asleep sleeper.wake) := by
      rw [hplaces]
      exact List.mem_singleton_self place
    obtain ⟨sleeper, hsleeper, hsome⟩ := List.mem_filterMap.1 hmem
    obtain ⟨head, -, rfl⟩ := Option.map_eq_some_iff.1 hsome
    exact ⟨sleeper, hsleeper, head, rfl⟩
  constructor
  · intro head hplace
    obtain ⟨sleeper, -, head', heq⟩ := @hasleep (.ready head) (by rw [hplace]; rfl)
    cases heq
  · intro wake head hplace
    obtain ⟨sleeper, hsleeper, head', heq⟩ := @hasleep (.asleep wake head) (by rw [hplace]; rfl)
    cases heq
    exact h.clock ▸ hsleepers sleeper hsleeper

theorem lasts_of_onCourse {story : List Beat} (h : Solo.OnCourse settings story solo)
    (hrun : Solo.Run True settings id story solo) (hshows : p.Shows id solo) {began : Nat}
    (hbegun : begunAt? story = some began) : p.Lasts id solo.session story began := by
  have htimes := hrun.time_le
  obtain ⟨beat, hbeat, rfl⟩ := exists_of_begunAt? hbegun
  have htotal := h.total_le_iff hbegun (htimes beat hbeat)
  have hlength : solo.session.scriptTime.total = solo.session.program.totalWait := by
    rw [h.scriptTime]
  have hstarted : solo.session.scriptTime.isStarted = true := by
    rw [h.scriptTime, hbegun]
    rfl
  rw [← hshows.clock, ← hshows.now] at htotal
  refine
    { left := fun r time hleft => ?_
      ended := fun time hended => ?_
      active := ?_
      leaves := fun hstill => ?_
      ends := fun hstill => ?_
      remaining := ?_
      complete := fun hover => ?_
      incomplete := fun hshort hbefore => ?_ }
  · have htime := h.unbroken.left r time hleft
    rw [hbegun] at htime
    exact (Option.some.inj htime).symm
  · obtain ⟨beat', hfind, rfl⟩ := Option.map_eq_some_iff.1 hended
    have htime := h.unbroken.ended beat' (List.mem_of_find?_eq_some hfind) (List.find?_some hfind)
    rw [hbegun] at htime
    exact (Option.some.inj htime).symm
  · rw [hshows.active, endedAt?_eq_none_iff]
    refine ⟨fun hactive => hrun.ordered.playing (hrun.ordered.present hactive), fun hplaying => ?_⟩
    refine h.active fun hgone => ?_
    obtain ⟨beat', hbeat', hends⟩ := h.ended hgone
    rw [hplaying beat' hbeat'] at hends
    cases hends
  · obtain ⟨hready, hasleep⟩ := hshows.still hstill
    rw [hshows.clock]
    exact h.left_iff hrun.timed hready hasleep htimes hbegun
  · obtain ⟨hready, hasleep⟩ := hshows.still hstill
    rw [hshows.clock]
    exact h.ended_iff hrun.timed hready hasleep htimes hbegun
  · rw [← htotal, ← hlength, Timeline.remaining]
    constructor
    · intro hnone
      have hnanos := congrArg Duration.nanos hnone
      rw [Duration.nanos_sub, Duration.nanos_zero] at hnanos
      omega
    · intro hle
      apply Duration.ext
      rw [Duration.nanos_sub, Duration.nanos_zero]
      omega
  · apply Timeline.progress_eq_one hstarted
    rw [hlength]
    exact htotal.2 hover
  · apply Timeline.progress_lt_one
    · rw [hlength]
      exact hshort
    · rw [hlength]
      by_contra hnot
      have hover := htotal.1 (Nat.le_of_not_lt hnot)
      omega

/-- In a punctual run, a session that nothing gets in the way of leaves each of its regions behind, and
ends, in the very millisecond in which the commands up to there are over. What it shows is complete
when what its program says about its length is over. The two are the same if that is honest. -/
theorem Run.lasts (run : Run True settings history p) (hs : p.session? id = some s)
    (hplain : s.program.Plain) (hcalm : s.Uninterrupted (story id history)) :
    (p.next? p.clock = none → (begunAt? (story id history)).isSome = true) ∧
      (∀ began, begunAt? (story id history) = some began →
        p.Lasts id s (story id history) began) ∧
      (s.program.Honest → s.program.heldInAll = s.program.totalWait.nanos ∧
        ∀ r, s.program.heldThrough r = (s.program.waitThrough r).nanos) := by
  obtain ⟨solo, hshows, rfl, hrun⟩ := run.apart_of_session? hs
  have h := hrun.onCourse hplain hcalm
  refine ⟨fun hstill => ?_, fun began hbegun => ?_, fun hhonest => ⟨hhonest.heldInAll_eq, ?_⟩⟩
  · obtain ⟨hready, -⟩ := hshows.still hstill
    cases hplace : solo.place with
    | ready head => exact absurd hplace (hready head)
    | asleep wake head =>
      obtain ⟨b, hbegun⟩ := h.begun (by rw [hplace]; rfl) (hrun.stage_of_asleep wake head hplace).1
      rw [hbegun]
      rfl
    | gone =>
      obtain ⟨beat, hbeat, hends⟩ := h.ended (by rw [hplace]; rfl)
      have htime := h.unbroken.ended beat hbeat hends
      rw [Option.map_eq_some_iff] at htime
      obtain ⟨b, hbegun, -⟩ := htime
      rw [hbegun]
      rfl
  · exact lasts_of_onCourse h hrun hshows hbegun
  · exact fun r => hhonest.heldThrough_eq hrun.blocks hrun.shaped r

/-- Three regions, of which the second begins within the last millisecond of the first. -/
def regions : List Occurrence × Playback :=
  let launched := ask (.launch (.inline "regions"
    "One <wait.0.0005>\n#region R\nTwo <wait.0.0015>\n#endregion\nThree <wait.0.001>") (.top none))
    ([], start {})
  follow (fun _ => 10) 20 launched.1 launched.2

theorem run_regions : Run True {} regions.1 regions.2 := by
  have hlaunch := Run.launched True {} (.inline "regions"
    "One <wait.0.0005>\n#region R\nTwo <wait.0.0015>\n#endregion\nThree <wait.0.001>") (.top none)
  exact hlaunch.follow (fun _ => 10) 20

theorem lasts_regions :
    ∃ s, regions.2.session? ⟨1⟩ = some s ∧ s.program.Plain ∧
      s.Uninterrupted (story ⟨1⟩ regions.1) ∧ regions.2.Lasts ⟨1⟩ s (story ⟨1⟩ regions.1) 0 ∧
      leftAt? s.program 1 (story ⟨1⟩ regions.1) = some 2 ∧
      s.program.heldThrough 1 = (s.program.waitThrough 1).nanos := by
  have hfacts : ∃ s, s ∈ regions.2.session? ⟨1⟩ ∧ s.program.Plain ∧
      s.Uninterrupted (story ⟨1⟩ regions.1) ∧ s.program.Honest ∧
      leftAt? s.program 1 (story ⟨1⟩ regions.1) = some 2 := by decide +kernel
  have hbegun : begunAt? (story ⟨1⟩ regions.1) = some 0 := by decide +kernel
  obtain ⟨s, hs, hplain, hcalm, hhonest, hleft⟩ := hfacts
  obtain ⟨-, hlasts, hsame⟩ := run_regions.lasts hs hplain hcalm
  exact ⟨s, hs, hplain, hcalm, hlasts 0 hbegun, hleft, (hsame hhonest).2 1⟩

def skipped : List Occurrence × Playback :=
  let launched := ask (.launch (.inline "skipped" "/autobusy\nOne <wait.0.1>") (.top none))
    ([], start {})
  follow (fun _ => 100) 20 launched.1 launched.2

theorem run_skipped : Run True {} skipped.1 skipped.2 := by
  have hlaunch := Run.launched True {} (.inline "skipped" "/autobusy\nOne <wait.0.1>") (.top none)
  exact hlaunch.follow (fun _ => 100) 20

def rareTicks : Settings := { playback := { tick := 20000000000 } }

/-- A wait of months, and one that is too short to show beside it. -/
def longWait : List Occurrence × Playback :=
  let launched := ask (.launch
    (.inline "longWait" "One <wait.16777216>\nTwo <wait.0.000000001>") (.top none))
    ([], start rareTicks)
  follow (fun _ => 16777216000) 20 launched.1 launched.2

theorem run_longWait : Run True rareTicks longWait.1 longWait.2 := by
  have hlaunch := Run.launched True rareTicks
    (.inline "longWait" "One <wait.16777216>\nTwo <wait.0.000000001>") (.top none)
  exact hlaunch.follow (fun _ => 16777216000) 20

/-- A session may end before what its program says about its length is over, and never show itself as
played to the end while it plays. It may also show itself as played before it has ended. -/
theorem ends_before_it_shows :
    Run True {} skipped.1 skipped.2 ∧
      (∃ s, s ∈ skipped.2.session? ⟨1⟩ ∧ s.program.Plain ∧
        s.Uninterrupted (story ⟨1⟩ skipped.1) ∧ begunAt? (story ⟨1⟩ skipped.1) = some 0 ∧
        endedAt? (story ⟨1⟩ skipped.1) = some 100 ∧ s.program.totalWait.ceilMillis = 110 ∧
        s.scriptTime.progress skipped.2.now < 1) ∧
      Run True rareTicks longWait.1 longWait.2 ∧
      ∃ s, s ∈ longWait.2.session? ⟨1⟩ ∧ s.program.Plain ∧ s.program.Honest ∧
        s.Uninterrupted (story ⟨1⟩ longWait.1) ∧ longWait.2.next? longWait.2.clock = none ∧
        longWait.2.isActive ⟨1⟩ = true ∧ s.scriptTime.progress longWait.2.now = 1 := by
  refine ⟨run_skipped, ?_, run_longWait, ?_⟩
  · decide +kernel
  · decide +kernel

end Playback

end Choreo
