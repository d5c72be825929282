import Choreo.Proofs.Playback.Announcing

/-!
# When countdowns are sent

Once it is planned, a countdown is left to itself. When its time has come it looks at its session:
whatever happened in between, only a seek makes it worthless for good. Pauses, loops and the end of the
session count as they are at that moment.
-/

namespace Choreo.Playback

variable {punctual : Prop} {settings : Settings} {history later between earlier : List Occurrence}
variable {p q : Playback} {act : Act} {id : SessionId} {s : Session} {o o' : Occurrence}
variable {task : Task} {sleeper : Sleeper}

def isCountdown : Task → Bool
  | .countdown _ _ _ => true
  | _ => false

def Occurrence.countdowns (o : Occurrence) : List Sleeper :=
  (o.after.sleepers.drop o.before.sleepers.length).filter (isCountdown ·.task)

/-! ## Planning -/

theorem filter_countdowns (sleepers : List Sleeper) :
    sleepers.filter (isCountdown ·.task) = (timers sleepers).filter (isCountdown ·.task) := by
  rw [timers, List.filter_filter]
  apply List.filter_congr
  intro sleeper _
  cases sleeper.task <;> rfl

theorem countdowns_eq (hstep : Step punctual p act q) :
    Occurrence.countdowns ⟨p, act, q⟩ = (p.actDue act).filter (isCountdown ·.task) := by
  unfold Occurrence.countdowns
  rw [filter_countdowns (p.actDue act)]
  cases hstep with
  | serve request =>
    have hnone : timers (p.actDue (.serve request (p.serve request).2)) = [] :=
      timers_actDue_of_not_play fun _ _ heq => by cases heq
    have hkept : (p.serve request).1.sleepers = p.sleepers := by
      rcases p.serve_cases request with ⟨_, _, _, -, hserve⟩ | ⟨_, _, _, _, hserve⟩
      · rw [hserve]
        rfl
      · rw [hserve]
    simp only [hkept, List.drop_length, hnone, List.filter_nil]
  | run hready =>
    rw [runTask_take_eq, timers_actDue_run, ← filter_countdowns, List.drop_left]
  | @pass time =>
    have hshorter : (p.wakeAt time).sleepers.length ≤ p.sleepers.length :=
      List.length_filter_le _ _
    simp only [List.drop_eq_nil_of_le hshorter]
    rfl

theorem countdowns_of_not_play (hstep : Step punctual p act q)
    (hplay : ∀ id head, act ≠ .run (.play id head)) : Occurrence.countdowns ⟨p, act, q⟩ = [] := by
  rw [countdowns_eq hstep, filter_countdowns, timers_actDue_of_not_play hplay]
  rfl

theorem countdowns_of_play {head : Playhead} (hstep : Step punctual p (.run (.play id head)) q)
    (hs : p.session? id = some s) :
    Occurrence.countdowns ⟨p, .run (.play id head), q⟩ =
      (head.step p.surroundings s).effects.filterMap
        (Effect.sleeper? p.clock p.settings.host id s.epoch) := by
  have hall (effects : List Effect) (epoch : Nat) :
      (effects.filterMap (Effect.sleeper? p.clock p.settings.host id epoch)).filter
        (isCountdown ·.task) =
      effects.filterMap (Effect.sleeper? p.clock p.settings.host id epoch) := by
    rw [List.filter_eq_self]
    intro sleeper hsleeper
    obtain ⟨_, _, rfl⟩ := Effect.eq_countdown_of_mem hsleeper
    rfl
  have hreleases (r : Playback) : ([.busy, .mare].filterMap (r.release? id)).filter
      (isCountdown ·.task) = [] := by
    rw [List.filter_eq_nil_iff]
    intro sleeper hsleeper
    obtain ⟨_, _, -, rfl⟩ := eq_release_of_mem hsleeper
    exact Bool.false_ne_true
  rw [countdowns_eq hstep, filter_countdowns, timers_actDue_play hs, List.filter_append, hall,
    head.step_epoch]
  split
  · rw [hreleases, List.append_nil]
  · exact List.append_nil _

/-- What happens as a session executes a command, as far as countdowns are concerned. -/
structure Occurrence.Executing (o : Occurrence) (earlier : List Occurrence) (id : SessionId)
    (i : Nat) (s t : Session) (c : Command) (region : Region) : Prop where
  before : o.before.session? id = some s
  after : o.after.session? id = some t
  command : s.program.commands[i]? = some c
  belongs : s.program.regions[c.region]? = some region
  /-- The session knows of its region and its mode what its story says. -/
  bearings : s.bearings = Choreo.bearings s.program (story id earlier)
  /-- The region is entered unless the session was in it, and after every seek. -/
  enters : ∀ id' r, .reached id' (.entered r) ∈ o.events ↔
    id' = id ∧ r = c.region ∧
      ((∃ target, .reached id (.sought target) ∈ o.events) ∨ s.region ≠ some c.region)
  inside : .reached id (.entered c.region) ∉ o.events → o.countdowns = []
  announced : .reached id (.entered c.region) ∈ o.events → ∀ seconds,
    s.program.Announces s.countdown i c region seconds →
      o.countdowns = [region.countdownAt o.before.clock o.before.settings.host id s.epoch seconds]
  unannounced : (∀ seconds, ¬s.program.Announces s.countdown i c region seconds) →
    o.countdowns = []
  /-- Being off is over as a region is entered. A mode that is left is the one that the command sets. -/
  off : .reached id (.entered c.region) ∈ o.events → s.countdown = some .off →
    t.countdown = c.directive.mode?

theorem applySeek_region_ne_iff (s : Session) (r : Nat) :
    s.applySeek.region ≠ some r ↔ s.pendingSeek.isSome ∨ s.region ≠ some r := by
  rw [s.applySeek_eq]
  cases s.pendingSeek <;> simp

theorem execute_countdown_of_off {c : Command} (hentered : s.applySeek.region ≠ some c.region)
    (hoff : s.countdown = some .off) (v : Surroundings) (i : Nat) :
    (s.execute v i c).1.countdown = c.directive.mode? := by
  have hbearings := congrArg Bearings.mode (s.execute_bearings v i c)
  rw [if_pos ⟨hentered, hoff⟩, Option.or_none] at hbearings
  exact hbearings

theorem Step.executing (run : Run punctual settings earlier p) {head : Playhead}
    (hstep : Step punctual p (.run (.play id head)) q) (hs : p.session? id = some s) {i : Nat}
    (hexecuted : .reached id (.executed i) ∈ (head.step p.surroundings s).events id) :
    ∃ t c region, Occurrence.Executing ⟨p, .run (.play id head), q⟩ earlier id i s t c region := by
  obtain ⟨solo, hshows, rfl, hsolo⟩ := run.apart_of_session? hs
  have hevents := hstep.events_play hs
  have hcountdowns := countdowns_of_play hstep hs
  have hafter : q.session? id = some (head.step p.surroundings solo.session).session := by
    obtain ⟨_, _, hready, rfl⟩ := hstep.eq_of_run
    exact (hshows.run_play hready).session
  cases head.step_plans p.surroundings solo.session hsolo.cancelled_iff id with
  | none hnone => rcases hnone _ hexecuted with heq | heq | ⟨_, heq⟩ <;> cases heq
  | @executed j c hcommand hwritten hcountdown hsleepers =>
    obtain ⟨region, hregion⟩ := hsolo.shaped.exists_regionOf? hcommand
    rw [hwritten] at hevents hexecuted
    obtain rfl := (Playhead.mem_executed_iff solo.session id c j i _).1 hexecuted
    have henters := solo.session.mem_entered_iff id c i (c.envelopes p.surroundings.settings.host id)
    have hsought := solo.session.mem_sought_iff id c i (c.envelopes p.surroundings.settings.host id)
    rw [← hevents] at henters hsought
    have hentered : .reached id (.entered c.region) ∈
        Occurrence.events ⟨p, .run (.play id head), q⟩ ↔
        solo.session.applySeek.region ≠ some c.region := by
      rw [henters]
      simp
    rw [hsleepers] at hcountdowns
    refine ⟨_, c, region,
      { before := hs
        after := hafter
        command := hcommand
        belongs := hregion
        bearings := hsolo.bearings_eq
        enters := ?_
        inside := ?_
        announced := ?_
        unannounced := ?_
        off := ?_ }⟩
    · intro id' r
      rw [henters, hsought, applySeek_region_ne_iff]
    · intro hnot
      rw [hcountdowns]
      exact Session.sleepers_execute_of_inside (not_not.1 fun hne => hnot (hentered.2 hne)) _ _ _ _ _ _
    · intro hmem seconds hannounces
      rw [hcountdowns]
      exact Session.sleepers_execute_of_announces hsolo.shaped hcommand hregion (hentered.1 hmem)
        hannounces _ _ _ _ _
    · intro hnever
      rw [hcountdowns]
      by_cases hregion' : solo.session.applySeek.region = some c.region
      · exact Session.sleepers_execute_of_inside hregion' _ _ _ _ _ _
      · exact Session.sleepers_execute_of_not_announces hsolo.shaped hcommand hregion hregion'
          hnever _ _ _ _ _
    · intro hmem hoff
      rw [hcountdown]
      exact execute_countdown_of_off (hentered.1 hmem) hoff _ _

theorem Run.executing (run : Run punctual settings (later ++ o :: earlier) p) {i : Nat}
    (hexecuted : .reached id (.executed i) ∈ o.events) :
    ∃ s t c region, o.Executing earlier id i s t c region := by
  obtain ⟨hrun, hstep⟩ := run.cut
  rw [hstep.events] at hexecuted
  obtain ⟨before, act, after⟩ := o
  obtain ⟨head, s, rfl, hs, hexecuted⟩ := exists_play_of_reached hexecuted
  exact ⟨s, Step.executing hrun hstep hs hexecuted⟩

/-- A region is entered, and a countdown planned, only as a command is executed. -/
theorem Run.idle (run : Run punctual settings (later ++ o :: earlier) p)
    (hidle : ∀ id i, .reached id (.executed i) ∉ o.events) :
    o.countdowns = [] ∧ ∀ id r, .reached id (.entered r) ∉ o.events := by
  obtain ⟨hrun, hstep⟩ := run.cut
  have hevents := hstep.events
  obtain ⟨before, act, after⟩ := o
  by_cases hplay : ∃ id head, act = .run (.play id head)
  · obtain ⟨id, head, rfl⟩ := hplay
    obtain ⟨solo, hshows, -, hsolo⟩ := hrun.apart_of_play hstep
    simp only [actEvents, taskEvents, hshows.session] at hevents
    rw [countdowns_of_play hstep hshows.session, hevents]
    rw [hevents] at hidle
    cases head.step_plans before.surroundings solo.session hsolo.cancelled_iff id with
    | none hnone hsleepers =>
      refine ⟨hsleepers _ _ _, fun id' r hentered => ?_⟩
      rcases hnone _ hentered with heq | heq | ⟨_, heq⟩ <;> cases heq
    | @executed i c _ hwritten _ _ =>
      exact absurd (by rw [hwritten]; simp) (hidle id i)
  · have hother : ∀ id head, act ≠ .run (.play id head) := fun id head hact => hplay ⟨id, head, hact⟩
    refine ⟨countdowns_of_not_play hstep hother, fun id r hentered => ?_⟩
    rw [hevents] at hentered
    obtain ⟨head, _, hact, -⟩ := exists_play_of_reached hentered
    exact hother id head hact

theorem exists_play_of_countdown (hstep : Step punctual p act q) {wake epoch : Nat}
    {command : String}
    (hplanned : ⟨wake, .countdown id epoch command⟩ ∈ Occurrence.countdowns ⟨p, act, q⟩) :
    ∃ head s, act = .run (.play id head) ∧ p.session? id = some s ∧ s.epoch = epoch := by
  by_cases hplay : ∃ i head, act = .run (.play i head)
  · obtain ⟨i, head, rfl⟩ := hplay
    cases hs : p.session? i with
    | none =>
      rw [countdowns_eq hstep] at hplanned
      simp [actDue, taskFront, taskBack, taskSleepers, hs] at hplanned
    | some s =>
      rw [countdowns_of_play hstep hs] at hplanned
      obtain ⟨_, _, heq⟩ := Effect.eq_countdown_of_mem hplanned
      cases heq
      exact ⟨head, s, rfl, hs, rfl⟩
  · rw [countdowns_of_not_play hstep fun i head hact => hplay ⟨i, head, hact⟩] at hplanned
    cases hplanned

/-! ## Epochs -/

theorem Step.epoch (run : Run punctual settings history p) (hstep : Step punctual p act q)
    (hs : p.session? id = some s) :
    ∃ t, q.session? id = some t ∧
      t.epoch = s.epoch + if Occurrence.seeks id ⟨p, act, q⟩ then 1 else 0 := by
  obtain ⟨solo, hshows, rfl, -⟩ := run.apart_of_session? hs
  obtain ⟨solo', hseen, hshows'⟩ := hshows.sees hstep
  refine ⟨solo'.session, hshows'.session, ?_⟩
  have hseeks := @seeks_iff id ⟨p, act, q⟩
  cases hseen with
  | beside hbeats => simp [hseeks, hbeats]
  | passed hact =>
    have hpass : act = _ := hact
    rw [hpass]
    rfl
  | played hact hplace hbeats =>
    have hnone : Occurrence.seeks id ⟨p, act, q⟩ = false := by
      have hplays : act = _ := hact
      rw [hplays]
      rfl
    rw [hnone]
    exact Playhead.step_epoch _ _ _
  | asked hasked hbeats =>
    rw [hbeats] at hseeks
    cases hasked with
    | paused hactive hpause =>
      obtain ⟨-, rfl⟩ := Session.eq_of_pause? hpause
      simp [hseeks]
    | resumed hactive hresume =>
      obtain ⟨-, rfl⟩ := Session.eq_of_resume? hresume
      simp [hseeks]
    | sought hactive hseek =>
      obtain ⟨_, -, -, rfl⟩ := Session.eq_of_seek? hseek
      simp [hseeks]
    | cancelled hactive =>
      obtain ⟨cancelled, hcancel, -⟩ := solo.session.cancel?_getD
      rw [hcancel]
      simp [hseeks]

theorem Run.epoch (run : Run punctual settings (later ++ o :: earlier) p)
    (hs : o.before.session? id = some s) (hseek : o.seeks id = false) :
    ∃ t, p.session? id = some t ∧ t.epoch = s.epoch + later.countP (·.seeks id) := by
  induction later generalizing p with
  | nil =>
    cases run with
    | step run hstep =>
      obtain ⟨t, ht, hepoch⟩ := Step.epoch run hstep hs
      rw [hseek] at hepoch
      exact ⟨t, ht, hepoch⟩
  | cons _ later ih =>
    cases run with
    | step run hstep =>
      obtain ⟨t, ht, hepoch⟩ := ih run
      obtain ⟨u, hu, hepoch'⟩ := Step.epoch run hstep ht
      refine ⟨u, hu, ?_⟩
      rw [hepoch', hepoch, List.countP_cons, Nat.add_assoc]

theorem countP_seeks_eq_zero_iff : later.countP (·.seeks id) = 0 ↔ Unsought id later := by
  simp only [List.countP_eq_zero, Bool.not_eq_true, Unsought]

/-- A countdown is sent if its session plays when its time has come, and was not asked for a line since
the countdown was planned. -/
theorem Run.fires (run : Run punctual settings (later ++ o :: (between ++ o' :: earlier)) p)
    {wake epoch : Nat} {command : String} (hact : o.act = .run (.countdown id epoch command))
    (hplanned : ⟨wake, .countdown id epoch command⟩ ∈ o'.countdowns) :
    o.events =
      if o.before.isActive id = true ∧ (o.before.session? id).map Session.status = some .playing ∧
          Unsought id between ∧ o.before.policy.ignoreCountdown = false then
        [.sent ⟨command, .queue, some id⟩]
      else [] := by
  obtain ⟨hrun, hstep⟩ := run.cut
  obtain ⟨-, hplan⟩ := hrun.cut
  obtain ⟨head, s, hplay, hs, hepoch⟩ := exists_play_of_countdown hplan hplanned
  have hseek : o'.seeks id = false := by rw [Occurrence.seeks, hplay]
  obtain ⟨t, ht, hepoch'⟩ := hrun.epoch hs hseek
  have hsame : t.epoch = epoch ↔ Unsought id between := by
    rw [← countP_seeks_eq_zero_iff, hepoch', hepoch]
    omega
  rw [hstep.events, hact]
  simp only [actEvents, taskEvents, ht, Option.map_some, Option.some.injEq]
  cases o.before.isActive id with
  | false => simp
  | true => simp only [hsame, Bool.not_eq_true', true_and]

/-- Whatever is sent, and is no countdown, is a padding, a release or what a command says. -/
theorem Run.sent_by (run : Run punctual settings (later ++ o :: earlier) p) {envelope : Envelope}
    (hsent : .sent envelope ∈ o.events) :
    (∃ i epoch command, o.act = .run (.countdown i epoch command)) ∨
      (∃ i payload left, o.act = .run (.pad i payload left)) ∨ envelope.origin = none ∨
        ∃ i s c, o.Executes i s c ∧ envelope ∈ c.envelopes settings.host i := by
  obtain ⟨hrun, hstep⟩ := run.cut
  have hevents := hstep.events
  obtain ⟨before, act, after⟩ := o
  rw [hevents] at hsent
  cases act with
  | serve request granted => cases hsent
  | pass time => cases hsent
  | run task =>
    cases task with
    | countdown i epoch command => exact .inl ⟨i, epoch, command, rfl⟩
    | pad i payload left => exact .inr (.inl ⟨i, payload, left, rfl⟩)
    | release ticket command =>
      have horigin : envelope.origin = (Task.release ticket command).session? :=
        origin_of_mem_taskEvents hsent
      exact .inr (.inr (.inl horigin))
    | play i head =>
      obtain ⟨solo, hshows, -, hsolo⟩ := hrun.apart_of_play hstep
      simp only [actEvents, taskEvents, hshows.session] at hsent hevents
      cases head.step_plans before.surroundings solo.session hsolo.cancelled_iff i with
      | none hnone => rcases hnone _ hsent with heq | heq | ⟨_, heq⟩ <;> cases heq
      | @executed j c hcommand hwritten _ _ =>
        rw [hwritten] at hsent hevents
        refine .inr (.inr (.inr ⟨i, solo.session, c, ⟨hshows.session, j, ?_, hcommand⟩, ?_⟩))
        · rw [hevents]
          exact (Playhead.mem_executed_iff solo.session i c j j _).2 rfl
        · rcases List.mem_append.1 hsent with harrival | hrest
          · exact absurd (Playhead.quiet_arrivals solo.session i c _ harrival) fun hquiet => hquiet
          · rcases List.mem_cons.1 hrest with heq | hmem
            · cases heq
            · obtain ⟨_, hmem, heq⟩ := List.mem_map.1 hmem
              cases heq
              rw [← hrun.settings_eq]
              exact hmem

theorem Run.countdowns_perm (run : Run True settings history p) :
    ((history.flatMap Occurrence.done ++ p.due).filter (isCountdown ·.task)).Perm
      (history.flatMap Occurrence.countdowns) := by
  have hplanned : (history.flatMap Occurrence.planned).filter (isCountdown ·.task) =
      history.flatMap Occurrence.countdowns := by
    induction run with
    | start => rfl
    | @step history p q act run hstep ih =>
      rw [List.flatMap_cons, List.flatMap_cons, List.filter_append, ih, countdowns_eq hstep]
      rfl
  rw [← hplanned]
  exact run.due_perm.filter _

theorem Run.exists_countdown (run : Run True settings (later ++ o :: earlier) p) {epoch : Nat}
    {command : String} (hact : o.act = .run (.countdown id epoch command)) :
    ∃ between o' earlier', earlier = between ++ o' :: earlier' ∧
      ⟨o.before.clock, .countdown id epoch command⟩ ∈ o'.countdowns := by
  obtain ⟨hrun, hstep⟩ := run.cut
  rw [hact] at hstep
  obtain ⟨before, after, hready, -⟩ := hstep.eq_of_run
  have hmem : Task.countdown id epoch command ∈ o.before.ready := by
    rw [hready]
    exact List.mem_append_right _ List.mem_cons_self
  obtain ⟨between, o', earlier', rfl, sleeper, hplanned, htask, hwake⟩ := hrun.exists_planned hmem
  obtain ⟨-, hplan⟩ := hrun.cut
  refine ⟨between, o', earlier', rfl, ?_⟩
  rw [countdowns_eq (p := o'.before) hplan, List.mem_filter]
  rw [← hwake trivial, ← htask]
  exact ⟨hplanned, by rw [htask]; rfl⟩

/-- A countdown is planned exactly if a session enters a region that is to be announced. When its time
has come, which is neither earlier nor later than it was planned for, it is sent exactly if the session
plays, was not asked for a line since and countdowns are not ignored. Nothing else sends one. -/
theorem Run.countdowns_come_in_time (run : Run True settings history p) :
    (∀ later o earlier, history = later ++ o :: earlier →
      (∀ id i, .reached id (.executed i) ∈ o.events →
        ∃ s t c region, o.Executing earlier id i s t c region) ∧
      ((∀ id i, .reached id (.executed i) ∉ o.events) →
        o.countdowns = [] ∧ ∀ id r, .reached id (.entered r) ∉ o.events) ∧
      (∀ id epoch command, o.act = .run (.countdown id epoch command) →
        (∃ between o' earlier', earlier = between ++ o' :: earlier' ∧
          ⟨o.before.clock, .countdown id epoch command⟩ ∈ o'.countdowns) ∧
        ∀ between o' earlier' wake, earlier = between ++ o' :: earlier' →
          ⟨wake, .countdown id epoch command⟩ ∈ o'.countdowns →
          o.events =
            if o.before.isActive id = true ∧
                (o.before.session? id).map Session.status = some .playing ∧
                Unsought id between ∧ o.before.policy.ignoreCountdown = false then
              [.sent ⟨command, .queue, some id⟩]
            else []) ∧
      ∀ envelope, .sent envelope ∈ o.events →
        (∃ i epoch command, o.act = .run (.countdown i epoch command)) ∨
          (∃ i payload left, o.act = .run (.pad i payload left)) ∨ envelope.origin = none ∨
            ∃ i s c, o.Executes i s c ∧ envelope ∈ c.envelopes settings.host i) ∧
      ((history.flatMap Occurrence.done ++ p.due).filter (isCountdown ·.task)).Perm
        (history.flatMap Occurrence.countdowns) ∧
      ∀ sleeper ∈ p.due, p.clock ≤ sleeper.wake := by
  refine ⟨?_, run.countdowns_perm, fun sleeper hdue => run.prompt.le_wake hdue⟩
  rintro later o earlier rfl
  refine ⟨fun id i => run.executing, run.idle, fun id epoch command hact => ⟨run.exists_countdown hact, ?_⟩,
    fun envelope => run.sent_by⟩
  rintro between o' earlier' wake rfl hplanned
  exact run.fires hact hplanned

def announced : List Occurrence × Playback :=
  let launched := ask (.launch (.inline "opera"
      "/autocd start\n#region Overture\n/play <wait.10>\n#region Finale\n/bow <wait.1>") (.top none))
    ([], start { playback := { tick := 4000 } })
  follow (fun _ => 6000) 20 launched.1 launched.2

theorem run_announced : Run True { playback := { tick := 4000 } } announced.1 announced.2 := by
  have hlaunch := Run.launched True { playback := { tick := 4000 } }
    (.inline "opera"
      "/autocd start\n#region Overture\n/play <wait.10>\n#region Finale\n/bow <wait.1>") (.top none)
  exact hlaunch.follow (fun _ => 6000) 20

theorem countdowns_come_in_time_announced :
    (announced.1.flatMap Occurrence.done ++ announced.2.due).filter (isCountdown ·.task) =
        [⟨5020, .countdown ⟨1⟩ 0 "/countdown 5"⟩] ∧
      (5020, ⟨"/countdown 5", .queue, some ⟨1⟩⟩) ∈ announced.2.sent := by
  have hplanned : announced.1.flatMap Occurrence.countdowns =
      [⟨5020, .countdown ⟨1⟩ 0 "/countdown 5"⟩] := by decide +kernel
  obtain ⟨-, hperm, -⟩ := run_announced.countdowns_come_in_time
  rw [hplanned] at hperm
  exact ⟨hperm.eq_singleton, by decide +kernel⟩

/-- A region that lasts longer than the clock can look ahead, played with ticks of many years. -/
def distant : List Occurrence × Playback :=
  let launched := ask (.launch (.inline "t"
      "/autocd\n#region A\n/a <wait.1e19>\n#endregion\n#region B\n/b <wait.1>\n") (.top none))
    ([], start { playback := { tick := 1000000000000 } })
  follow (fun _ => 946080000000) 20 launched.1 launched.2

theorem run_distant : Run True { playback := { tick := 1000000000000 } } distant.1 distant.2 := by
  have hlaunch := Run.launched True { playback := { tick := 1000000000000 } }
    (.inline "t"
      "/autocd\n#region A\n/a <wait.1e19>\n#endregion\n#region B\n/b <wait.1>\n") (.top none)
  exact hlaunch.follow (fun _ => 946080000000) 20

/-- A countdown that is too far away comes after thirty years, though it is due much later. -/
theorem countdown_before_its_time :
    Run True { playback := { tick := 1000000000000 } } distant.1 distant.2 ∧
      ⟨0, .reached ⟨1⟩ (.entered 1)⟩ ∈ distant.2.journal ∧
      (946080000000, ⟨"/countdown 6", .queue, some ⟨1⟩⟩) ∈ distant.2.sent ∧
      (distant.2.session? ⟨1⟩).map
          (fun s => s.program.regions[1]?.map fun region => (region.untilCountdown 6).ceilMillis) =
        some (some 9999999999999999994020) :=
  ⟨run_distant, by decide +kernel, by decide +kernel, by decide +kernel⟩

end Choreo.Playback
