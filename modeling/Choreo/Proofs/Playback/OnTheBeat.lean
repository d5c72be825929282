import Choreo.Proofs.Playback.Countdowns
import Choreo.Proofs.Playback.Visits

/-!
# Countdowns on the beat

The time to a countdown is counted by the clock, and from the moment in which the region is entered. So
a countdown finds its session in the region still, unless the session went back to the beginning or left
out nearly as many waits as the countdown is long. The region then shows as played the time that the
countdown was put off for, less the pauses.
-/

namespace Choreo

theorem Duration.sleepMillis_le (d : Duration) : d.sleepMillis * 1000000 ≤ d.nanos + 999999 := by
  unfold sleepMillis
  split
  · unfold ceilMillis
    omega
  · next hfar =>
    unfold seconds farthestSecond at hfar
    unfold thirtyYears
    omega

namespace Playback

variable {settings : Settings} {later between earlier : List Occurrence} {p q : Playback}
variable {o o' : Occurrence} {act : Act} {id : SessionId} {s t : Session} {i seconds : Nat}
variable {c : Command} {region : Region} {program : Program} {visit : Visit}

/-! ## Entering a region -/

def visitOf (settings : Settings) (program : Program) (story : List Beat) (clock i : Nat)
    (c : Command) (region : Region) : Visit where
  region := c.region
  wait := region.wait
  entered := clock
  first := i
  leftOut := leftOut program settings story

theorem beats_of_play {punctual : Prop} {head : Playhead}
    (hstep : Step punctual p (.run (.play id head)) q) (hs : p.session? id = some s) :
    Occurrence.beats id ⟨p, .run (.play id head), q⟩ =
      ((head.step p.surroundings s).events id).map
        (Beat.note p.clock p.policy.ignoreLooping) := by
  unfold Occurrence.beats Occurrence.happenings
  simp only [if_true]
  rw [hstep.events_play hs, List.map_map]
  rfl

/-- A session visits the region that it enters, unless it goes back to the beginning at once. -/
theorem Run.visits_entered (run : Run True settings earlier p) (hstep : Step True p act q)
    (hexecuting : Occurrence.Executing ⟨p, act, q⟩ earlier id i s t c region)
    (hexecuted : .reached id (.executed i) ∈ Occurrence.events ⟨p, act, q⟩)
    (hentered : .reached id (.entered c.region) ∈ Occurrence.events ⟨p, act, q⟩)
    (hloops : ∀ beat ∈ Occurrence.beats id ⟨p, act, q⟩, beat.loops s.program = false) :
    ∃ solo, q.Shows id solo ∧ Solo.Run True settings id (story id (⟨p, act, q⟩ :: earlier)) solo ∧
      solo.session.program = s.program ∧
      solo.Visiting (visitOf settings s.program (story id earlier) p.clock i c region) settings
        (story id (⟨p, act, q⟩ :: earlier)) 0 := by
  have hwritten := @Step.events _ ⟨p, act, q⟩ hstep
  rw [hwritten] at hexecuted
  obtain ⟨head, _, hact, hs, hexecuted⟩ := exists_play_of_reached hexecuted
  subst hact
  obtain ⟨solo, hshows, hplace, hsolo⟩ := run.apart_of_play hstep
  have hsession := hshows.session
  rw [hexecuting.before] at hsession
  cases hsession
  rw [hexecuting.before] at hs
  cases hs
  have hbeats := beats_of_play hstep hexecuting.before
  have hevents := hstep.events_play hexecuting.before
  have hshows' : q.Shows id (solo.after (head.step p.surroundings solo.session)) := by
    obtain ⟨_, _, hready, rfl⟩ := hstep.eq_of_run
    exact hshows.run_play hready
  have hrun := hsolo.step
    (@Solo.Step.played True settings id solo head p.surroundings hplace hshows.now run.settings_eq)
  rw [hevents] at hentered
  rw [hbeats, List.forall_mem_map] at hloops
  rw [story_cons, hbeats, hshows.clock]
  refine ⟨_, hshows', hrun, ?_⟩
  have hproceeds := head.step_proceeds p.surroundings solo.session hsolo.cancelled_iff id
  generalize head.step p.surroundings solo.session = move at *
  cases hproceeds with
  | opening _ hnone | ended _ hnone => exact absurd hexecuted (hnone i)
  | @wentBack c' hcommand hback hexecuted' =>
    have hnot := hloops _ hexecuted'
    have hback' : solo.session.program.goesBack p.policy.ignoreLooping c' := hback
    simp [Beat.loops, Beat.note, Beat.executed?, hcommand, hback'] at hnot
  | @executes c' head' hexecutes =>
    rw [hexecutes.events] at hentered hexecuted
    obtain rfl := (Playhead.mem_executed_iff _ id c' _ _ _).1 hexecuted
    have hcommand := hexecutes.command
    rw [hexecuting.command] at hcommand
    cases hcommand
    obtain ⟨-, -, hne⟩ := (Session.mem_entered_iff _ id c _ _ _ _).1 hentered
    exact ⟨hexecutes.fields.1,
      Solo.Visiting.enter hsolo hexecuting.belongs hne hplace hshows.now hexecutes⟩
  | stays hstays =>
    have hnone : move.events id = [] := by
      rw [Move.events, hstays.effects]
      rfl
    rw [hnone] at hexecuted
    cases hexecuted

/-! ## Staying in a region -/

theorem not_sought_of_seeks {o : Occurrence} (hseek : o.seeks id = false) {beat : Beat}
    (hbeat : beat ∈ o.beats id) (line : Nat) : beat.happening ≠ .sought line := by
  intro hsought
  have hseeks : o.seeks id = true := seeks_iff.2 ⟨line, hsought ▸ List.mem_map_of_mem hbeat⟩
  rw [hseek] at hseeks
  cases hseeks

theorem timePaused_cons (id : SessionId) (o : Occurrence) (earlier : List Occurrence) :
    timePaused id (o :: earlier) = timePaused id earlier + o.paused id := by
  simp [timePaused, Nat.add_comm]

/-- A session that is still there at the end of a step was there before it, and was where it had entered
a region as long as that could not be over. -/
theorem Run.visits (run : Run True settings (between ++ o :: earlier) p) {solo₀ : Solo}
    (hshows₀ : o.after.Shows id solo₀)
    (hrun₀ : Solo.Run True settings id (story id (o :: earlier)) solo₀)
    (hopens : visit.Opens solo₀.session.program)
    (hvisiting₀ : solo₀.Visiting visit settings (story id (o :: earlier)) 0)
    (hunsought : Unsought id between)
    (hloops : ∀ beat ∈ story id between, beat.loops solo₀.session.program = false) :
    ∃ solo, p.Shows id solo ∧
      Solo.Run True settings id (story id (between ++ o :: earlier)) solo ∧
      solo.session.program = solo₀.session.program ∧
      (solo.active = true →
        visit.Unfinished solo.clock
          (leftOut solo.session.program settings (story id (between ++ o :: earlier))) →
        solo.Visiting visit settings (story id (between ++ o :: earlier)) (timePaused id between) ∧
          ∀ beat ∈ story id between, beat.moves = false) := by
  induction between generalizing p with
  | nil =>
    cases run with
    | step run hstep =>
      exact ⟨solo₀, hshows₀, hrun₀, rfl, fun _ _ => ⟨hvisiting₀, List.forall_mem_nil _⟩⟩
  | cons o' between ih =>
    cases run with
    | @step _ p' _ act run hstep =>
      obtain ⟨hsought, hunsought⟩ := List.forall_mem_cons.1 hunsought
      rw [story_cons, List.forall_mem_append] at hloops
      obtain ⟨hloops', hloops⟩ := hloops
      obtain ⟨solo, hshows, hrun, hprogram, hvisits⟩ := ih run hunsought hloops
      obtain ⟨solo', hseen, hshows'⟩ := hshows.sees hstep
      have hsoloStep := hshows.step run.settings_eq hseen
      have hprogram' := hrun.program_eq hsoloStep
      have hpaused : Occurrence.paused id ⟨p', act, p⟩ = _ := hshows.elapsed hshows'
      have hclock : solo.clock ≤ solo'.clock := by
        rw [← hshows.clock, ← hshows'.clock]
        exact hstep.clock_le
      rw [List.cons_append, story_cons, story_cons, timePaused_cons, hpaused]
      refine ⟨solo', hshows', hrun.step hsoloStep, hprogram'.trans hprogram, ?_⟩
      intro hactive hunfinished
      rw [hprogram'] at hunfinished
      obtain ⟨hvisiting, hstill⟩ := hvisits (hsoloStep.active_before hactive)
        (hunfinished.mono hclock (leftOut_le_append _ _ _ _))
      obtain ⟨hvisiting', hstill'⟩ := hvisiting.step hrun hsoloStep (hprogram ▸ hopens) hactive
        (fun beat hbeat => hprogram ▸ hloops' beat (List.mem_reverse.2 hbeat))
        (fun beat hbeat => not_sought_of_seeks hsought hbeat) hunfinished
      refine ⟨hvisiting', fun beat hbeat => ?_⟩
      rcases List.mem_append.1 hbeat with hnew | hold
      · exact hstill' beat (List.mem_reverse.1 hnew)
      · exact hstill beat hold

/-! ## Countdowns -/

/-- A countdown is sent in a step. In an earlier one, its session entered a region that was to be
announced so many seconds before its end. -/
structure Occurrence.Heralds (o o' : Occurrence) (between earlier : List Occurrence)
    (id : SessionId) (i : Nat) (s t u : Session) (c : Command) (region : Region) (seconds : Nat) :
    Prop where
  executing : o'.Executing earlier id i s t c region
  executed : .reached id (.executed i) ∈ o'.events
  entered : .reached id (.entered c.region) ∈ o'.events
  announces : s.program.Announces s.countdown i c region seconds
  unsought : Unsought id between
  clock : o.before.clock = o'.before.clock + (region.untilCountdown seconds).sleepMillis
  events : o.events =
    [.sent ⟨o'.before.settings.host.countdown ++ " " ++ Nat.repr seconds, .queue, some id⟩]
  active : o.before.isActive id = true
  session : o.before.session? id = some u
  playing : u.status = .playing
  program_eq : u.program = s.program

/-- A session is where it was when it entered a region, which shows how much of it was played. -/
structure Occurrence.OnTheBeat (o : Occurrence) (between : List Occurrence) (id : SessionId)
    (u : Session) (c : Command) (region : Region) (seconds : Nat) : Prop where
  region_eq : u.region = some c.region
  still : ∀ beat ∈ story id between, beat.moves = false
  shows : u.regionTime.Shows region.wait false o.before.now
    (((region.untilCountdown seconds).sleepMillis - timePaused id between) * 1000000)

theorem Step.program_eq {punctual : Prop} (run : Run punctual settings earlier p)
    (hstep : Step punctual p act q) (hs : p.session? id = some s) :
    ∃ u, q.session? id = some u ∧ u.program = s.program := by
  obtain ⟨solo, hshows, rfl, hsolo⟩ := run.apart_of_session? hs
  obtain ⟨solo', hstep', hshows'⟩ := hshows.follows run.settings_eq hstep
  exact ⟨solo'.session, hshows'.session, hsolo.program_eq hstep'⟩

theorem Run.program_eq {punctual : Prop} (run : Run punctual settings (later ++ o :: earlier) p)
    (hs : o.before.session? id = some s) :
    ∃ u, p.session? id = some u ∧ u.program = s.program := by
  induction later generalizing p with
  | nil =>
    cases run with
    | step run hstep => exact hstep.program_eq run hs
  | cons _ later ih =>
    cases run with
    | step run hstep =>
      obtain ⟨t, ht, hprogram⟩ := ih run
      obtain ⟨u, hu, hprogram'⟩ := hstep.program_eq run ht
      exact ⟨u, hu, hprogram'.trans hprogram⟩

/-- A countdown is planned only as its session enters a region that is to be announced. -/
theorem Run.exists_executing {punctual : Prop} (run : Run punctual settings (later ++ o :: earlier) p)
    {wake epoch : Nat} {command : String}
    (hplanned : ⟨wake, .countdown id epoch command⟩ ∈ o.countdowns) :
    ∃ i s t c region seconds, o.Executing earlier id i s t c region ∧
      .reached id (.executed i) ∈ o.events ∧ .reached id (.entered c.region) ∈ o.events ∧
      s.program.Announces s.countdown i c region seconds ∧
      region.countdownAt o.before.clock o.before.settings.host id s.epoch seconds =
        ⟨wake, .countdown id epoch command⟩ := by
  obtain ⟨hrun, hstep⟩ := run.cut
  obtain ⟨head, _, hplay, -, -⟩ := exists_play_of_countdown hstep hplanned
  have hbusy : ∃ id' i, .reached id' (.executed i) ∈ o.events := by
    by_contra hidle
    have hnone := (run.idle fun id' i hexecuted => hidle ⟨id', i, hexecuted⟩).1
    rw [hnone] at hplanned
    cases hplanned
  obtain ⟨id', i, hexecuted⟩ := hbusy
  have hsame : id' = id := by
    have hwritten := hexecuted
    rw [hstep.events] at hwritten
    obtain ⟨_, _, hplay', -⟩ := exists_play_of_reached hwritten
    rw [hplay] at hplay'
    cases hplay'
    rfl
  subst hsame
  obtain ⟨s, t, c, region, hexecuting⟩ := run.executing hexecuted
  have hentered : .reached id' (.entered c.region) ∈ o.events := by
    by_contra hinside
    rw [hexecuting.inside hinside] at hplanned
    cases hplanned
  have hannounced : ∃ seconds, s.program.Announces s.countdown i c region seconds := by
    by_contra hnever
    rw [hexecuting.unannounced fun seconds hannounces => hnever ⟨seconds, hannounces⟩] at hplanned
    cases hplanned
  obtain ⟨seconds, hannounces⟩ := hannounced
  rw [hexecuting.announced hentered seconds hannounces] at hplanned
  exact ⟨i, s, t, c, region, seconds, hexecuting, hexecuted, hentered, hannounces,
    (List.mem_singleton.1 hplanned).symm⟩

theorem Run.exists_heralds (run : Run True settings (later ++ o :: earlier) p) {epoch : Nat}
    {command : String} (hact : o.act = .run (.countdown id epoch command)) (hsent : o.events ≠ []) :
    ∃ between o' earlier' i s t u c region seconds, earlier = between ++ o' :: earlier' ∧
      o.Heralds o' between earlier' id i s t u c region seconds := by
  obtain ⟨between, o', earlier', rfl, hplanned⟩ := run.exists_countdown hact
  have hfires := run.fires hact hplanned
  obtain ⟨hrun, -⟩ := run.cut
  obtain ⟨i, s, t, c, region, seconds, hexecuting, hexecuted, hentered, hannounces, hcountdown⟩ :=
    hrun.exists_executing hplanned
  obtain ⟨hclock, htask⟩ := Sleeper.mk.inj hcountdown
  obtain ⟨-, -, rfl⟩ := Task.countdown.inj htask
  obtain ⟨u, hu, hprogram⟩ := hrun.program_eq hexecuting.before
  rw [hu] at hfires
  split at hfires
  · next hdue =>
    obtain ⟨hactive, hplaying, hunsought, -⟩ := hdue
    exact ⟨between, o', earlier', i, s, t, u, c, region, seconds, rfl,
      { executing := hexecuting
        executed := hexecuted
        entered := hentered
        announces := hannounces
        unsought := hunsought
        clock := hclock.symm
        events := hfires
        active := hactive
        session := hu
        playing := Option.some.inj hplaying
        program_eq := hprogram }⟩
  · exact absurd hfires hsent

theorem nanos_untilCountdown {mode : Option Countdown}
    (h : program.Announces mode i c region seconds) :
    (region.untilCountdown seconds).nanos + seconds * 1000000000 =
      region.wait.nanos + 20000000 := by
  have hlong : 9000000000 < region.wait.nanos := h.long
  rcases h.mode with ⟨-, rfl⟩ | ⟨-, rfl⟩
  · have hlead : (Duration.ofSeconds 5 - Duration.ofMillis 20).nanos = 4980000000 := rfl
    rw [Region.untilCountdown, Duration.nanos_sub, hlead]
    omega
  · have hlead : (Duration.ofSeconds 6 - Duration.ofMillis 20).nanos = 5980000000 := rfl
    rw [Region.untilCountdown, Duration.nanos_sub, hlead]
    omega

/-- A countdown comes before its region can be over, unless nearly as many waits were left out as the
countdown is long. -/
theorem unfinished_of_announces {mode : Option Countdown} {story : List Beat} {clock leftOut' : Nat}
    (h : program.Announces mode i c region seconds)
    (hleftOut : leftOut' + 22000000 ≤ leftOut program settings story + seconds * 1000000000) :
    (visitOf settings program story clock i c region).Unfinished
      (clock + (region.untilCountdown seconds).sleepMillis) leftOut' := by
  have huntil := nanos_untilCountdown h
  have hsleep := (region.untilCountdown seconds).sleepMillis_le
  generalize hmillis : (region.untilCountdown seconds).sleepMillis * 1000000 = millis at hsleep
  show (clock + (region.untilCountdown seconds).sleepMillis + 1) * 1000000 + leftOut' ≤
    clock * 1000000 + region.wait.nanos + leftOut program settings story
  rw [Nat.add_mul, Nat.add_mul, hmillis]
  omega

/-- A countdown that is sent was planned as its session, which plays, entered a region, and no line was
asked for since. If the session has not gone back to the beginning either, and has left out less of its
waits than the countdown is long, it is in that same visit of the region. The region then shows as
played the time to the countdown, rounded up to a millisecond, less what the session was paused for. -/
theorem Run.countdowns_on_the_beat (run : Run True settings (later ++ o :: earlier) p) {epoch : Nat}
    {command : String} (hact : o.act = .run (.countdown id epoch command)) (hsent : o.events ≠ []) :
    ∃ between o' earlier' i s t u c region seconds, earlier = between ++ o' :: earlier' ∧
      o.Heralds o' between earlier' id i s t u c region seconds ∧
      ((∀ beat ∈ story id (between ++ [o']), beat.loops u.program = false) →
        leftOut u.program settings (story id earlier) + 22000000 ≤
          leftOut u.program settings (story id earlier') + seconds * 1000000000 →
        o.OnTheBeat between id u c region seconds) := by
  obtain ⟨between, o', earlier', i, s, t, u, c, region, seconds, rfl, h⟩ :=
    run.exists_heralds hact hsent
  refine ⟨between, o', earlier', i, s, t, u, c, region, seconds, rfl, h, fun hloops hleftOut => ?_⟩
  obtain ⟨hrun, -⟩ := run.cut
  obtain ⟨hbefore, hstep⟩ := hrun.cut
  have hstory : story id (between ++ [o']) = story id between ++ (o'.beats id).reverse := by
    simp [story]
  rw [h.program_eq] at hloops hleftOut
  rw [hstory, List.forall_mem_append] at hloops
  obtain ⟨hloops, hloops'⟩ := hloops
  obtain ⟨solo₀, hshows₀, hrun₀, hprogram₀, hvisiting₀⟩ :=
    hbefore.visits_entered hstep h.executing h.executed h.entered fun beat hbeat =>
      hloops' beat (List.mem_reverse.2 hbeat)
  have hopens : (visitOf settings s.program (story id earlier') o'.before.clock i c region).Opens
      solo₀.session.program := by
    rw [hprogram₀]
    exact ⟨⟨region, h.executing.belongs, rfl⟩, ⟨c, h.executing.command, rfl⟩, h.announces.first⟩
  obtain ⟨solo, hshows, hsolo, hprogram, hvisits⟩ :=
    hrun.visits hshows₀ hrun₀ hopens hvisiting₀ h.unsought (hprogram₀ ▸ hloops)
  have hsession := hshows.session
  rw [h.session] at hsession
  cases hsession
  have hclock : solo.clock = o'.before.clock + (region.untilCountdown seconds).sleepMillis :=
    hshows.clock.symm.trans h.clock
  have hunfinished : (visitOf settings s.program (story id earlier') o'.before.clock i c
      region).Unfinished solo.clock
        (leftOut solo.session.program settings (story id (between ++ o' :: earlier'))) := by
    rw [h.program_eq, hclock]
    exact unfinished_of_announces h.announces hleftOut
  obtain ⟨hvisiting, hstill⟩ := hvisits (hshows.active ▸ h.active) hunfinished
  have hplayed : solo.clock - (o'.before.clock + timePaused id between) =
      (region.untilCountdown seconds).sleepMillis - timePaused id between := by
    rw [hclock, Nat.add_sub_add_left]
  have hregionTime := hvisiting.regionTime.shows
  rw [h.playing] at hregionTime
  refine ⟨hvisiting.region, hstill, ?_⟩
  rw [hshows.now, ← hplayed]
  exact hregionTime

def slowTicks : Settings := { playback := { tick := 4000 } }

def opened (name text : String) : List Occurrence × Playback :=
  let launched := ask (.launch (.inline name text) (.top none)) ([], start slowTicks)
  follow (fun _ => 0) 20 launched.1 launched.2

theorem run_opened (name text : String) :
    Run True slowTicks (opened name text).1 (opened name text).2 := by
  have hlaunch := Run.launched True slowTicks (.inline name text) (.top none)
  exact hlaunch.follow (fun _ => 0) 20

def busyOpera : String :=
  "/autocd start\n#region Overture\n/autobusy <wait.1>\n/play <wait.9>\n#region Finale\n/bow <wait.1>"

/-- A session that is paused for half a second in a region of which it leaves out one of ten seconds. A
countdown is about to be sent. -/
def awaited : List Occurrence × Playback :=
  let paused := ask (.pause ⟨1⟩) (wait 1000 (opened "opera" busyOpera))
  let resumed := ask (.resume ⟨1⟩) (wait 1500 paused)
  follow (fun _ => 5020) 3 resumed.1 resumed.2

theorem run_awaited : Run True slowTicks awaited.1 awaited.2 := by
  have hpause := Run.ask ((run_opened "opera" busyOpera).wait 1000 fun _ => by decide +kernel)
    (.pause ⟨1⟩)
  have hresume := Run.ask (hpause.wait 1500 fun _ => by decide +kernel) (.resume ⟨1⟩)
  exact hresume.follow (fun _ => 5020) 3

def awaitedCountdown : Occurrence :=
  ⟨awaited.2, .run (.countdown ⟨1⟩ 0 "/countdown 5"),
    { awaited.2 with ready := [] }.runTask (.countdown ⟨1⟩ 0 "/countdown 5")⟩

theorem countdowns_on_the_beat_awaited :
    awaitedCountdown.events = [.sent ⟨"/countdown 5", .queue, some ⟨1⟩⟩] ∧
      ∃ between o' earlier i s t u c region seconds, awaited.1 = between ++ o' :: earlier ∧
        awaitedCountdown.Heralds o' between earlier ⟨1⟩ i s t u c region seconds ∧
        awaitedCountdown.OnTheBeat between ⟨1⟩ u c region seconds ∧
        leftOut u.program slowTicks (story ⟨1⟩ awaited.1) = 1010000000 ∧
        u.region = some 1 ∧ (u.regionTime.elapsed awaitedCountdown.before.now).nanos = 4520000000 := by
  -- Decided at once, so that the run is worked out only once.
  obtain ⟨hready, hevents, u, hu, hloops, hleftOut, hregion, helapsed⟩ :
      awaited.2.ready = [.countdown ⟨1⟩ 0 "/countdown 5"] ∧
        awaitedCountdown.events = [.sent ⟨"/countdown 5", .queue, some ⟨1⟩⟩] ∧
        ∃ u, u ∈ awaitedCountdown.before.session? ⟨1⟩ ∧
          (∀ beat ∈ story ⟨1⟩ awaited.1, beat.loops u.program = false) ∧
          leftOut u.program slowTicks (story ⟨1⟩ awaited.1) = 1010000000 ∧
          u.region = some 1 ∧ (u.regionTime.elapsed awaitedCountdown.before.now).nanos = 4520000000 := by
    decide +kernel
  have hrun := run_awaited.step (@Step.run True awaited.2 [] [] _ hready)
  have hsent : awaitedCountdown.events ≠ [] := by
    rw [hevents]
    exact List.cons_ne_nil _ _
  obtain ⟨between, o', earlier, i, s, t, u', c, region, seconds, hhistory, hheralds, hbeat⟩ :=
    @Run.countdowns_on_the_beat slowTicks [] awaited.1 _ awaitedCountdown ⟨1⟩ hrun 0
      "/countdown 5" rfl hsent
  have hsame : u' = u := Option.some.inj (hheralds.session.symm.trans hu)
  subst hsame
  have hstory : story ⟨1⟩ awaited.1 = story ⟨1⟩ (between ++ [o']) ++ story ⟨1⟩ earlier := by
    rw [hhistory, List.append_cons]
    exact List.flatMap_append
  have hlong : 5 * 1000000000 ≤ seconds * 1000000000 := by
    apply Nat.mul_le_mul_right
    rcases hheralds.announces.mode with ⟨-, rfl⟩ | ⟨-, rfl⟩ <;> decide
  refine ⟨hevents, between, o', earlier, i, s, t, u', c, region, seconds, hhistory, hheralds,
    hbeat (fun beat hbeat => hloops beat ?_) ?_, hleftOut, hregion, helapsed⟩
  · rw [hstory]
    exact List.mem_append_left _ hbeat
  · rw [hleftOut]
    omega

def opera : String :=
  "/autocd start\n#region Overture\n/play <wait.10>\n#region Finale\n/bow <wait.1>"

def interrupted : List Occurrence × Playback :=
  let paused := ask (.pause ⟨1⟩) (wait 1000 (opened "opera" opera))
  let resumed := ask (.resume ⟨1⟩) (wait 2000 paused)
  follow (fun _ => 5020) 20 resumed.1 resumed.2

theorem run_interrupted : Run True slowTicks interrupted.1 interrupted.2 := by
  have hpause := Run.ask ((run_opened "opera" opera).wait 1000 fun _ => by decide +kernel)
    (.pause ⟨1⟩)
  have hresume := Run.ask (hpause.wait 2000 fun _ => by decide +kernel) (.resume ⟨1⟩)
  exact hresume.follow (fun _ => 5020) 20

def hurry : String :=
  "/autocd\n#region A\n/autobusy <wait.9>\n/a <wait.2>\n#region B\n/b <wait.10>"

def hurried : List Occurrence × Playback :=
  follow (fun _ => 5020) 20 (opened "hurry" hurry).1 (opened "hurry" hurry).2

theorem run_hurried : Run True slowTicks hurried.1 hurried.2 :=
  (run_opened "hurry" hurry).follow (fun _ => 5020) 20

def rounds : String :=
  "/autocd start\n#region A\n/play <wait.1>\n/loop\n/rest <wait.10>\n#region B\n/bow <wait.1>"

def circling : List Occurrence × Playback :=
  follow (fun _ => 6030) 60 (opened "rounds" rounds).1 (opened "rounds" rounds).2

theorem run_circling : Run True slowTicks circling.1 circling.2 :=
  (run_opened "rounds" rounds).follow (fun _ => 6030) 60

/-- After a pause a countdown comes too early for its region. One whose session has left the region, or
has entered it anew after going back to the beginning, is sent all the same. -/
theorem countdown_off_the_beat :
    (Run True slowTicks interrupted.1 interrupted.2 ∧
      ⟨0, .reached ⟨1⟩ (.entered 1)⟩ ∈ interrupted.2.journal ∧
      (5020, ⟨"/countdown 5", .queue, some ⟨1⟩⟩) ∈ interrupted.2.sent ∧
      ∃ s, s ∈ interrupted.2.session? ⟨1⟩ ∧
        (s.program.regions[1]?.map fun region => (region.untilCountdown 5).ceilMillis) = some 5020 ∧
        s.region = some 1 ∧ interrupted.2.clock = 5020 ∧
        (s.regionTime.elapsed interrupted.2.now).nanos = 4020000000) ∧
    (Run True slowTicks hurried.1 hurried.2 ∧
      ⟨0, .reached ⟨1⟩ (.entered 1)⟩ ∈ hurried.2.journal ∧
      ⟨2000, .reached ⟨1⟩ (.entered 2)⟩ ∈ hurried.2.journal ∧
      (5020, ⟨"/countdown 6", .queue, some ⟨1⟩⟩) ∈ hurried.2.sent ∧
      ∃ s, s ∈ hurried.2.session? ⟨1⟩ ∧
        (s.program.regions[1]?.map fun region => (region.untilCountdown 6).ceilMillis) = some 5020 ∧
        s.region = some 2 ∧ hurried.2.clock = 5020) ∧
    (Run True slowTicks circling.1 circling.2 ∧
      ⟨0, .reached ⟨1⟩ (.entered 1)⟩ ∈ circling.2.journal ∧
      ⟨6000, .reached ⟨1⟩ (.entered 1)⟩ ∈ circling.2.journal ∧
      (6030, ⟨"/countdown 5", .queue, some ⟨1⟩⟩) ∈ circling.2.sent ∧
      ∃ s, s ∈ circling.2.session? ⟨1⟩ ∧
        (s.program.regions[1]?.map fun region => (region.untilCountdown 5).ceilMillis) = some 6030 ∧
        s.region = some 1 ∧ circling.2.clock = 6030 ∧
        (s.regionTime.elapsed circling.2.now).nanos = 30000000) := by
  refine ⟨⟨run_interrupted, ?_⟩, ⟨run_hurried, ?_⟩, ⟨run_circling, ?_⟩⟩
  · decide +kernel
  · decide +kernel
  · decide +kernel

end Playback

end Choreo
