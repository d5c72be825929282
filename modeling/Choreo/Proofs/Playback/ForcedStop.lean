import Choreo.Proofs.Playback.Lifecycle
import Choreo.Proofs.Playback.Pausing
import Choreo.Proofs.Playback.Tasks

/-!
# Forced stop

While the host forbids playback nothing is launched and no command is executed, and every playhead
that looks around cancels its session. None of them sleeps longer than a tick, and one that does not
look around when it wakes up goes on at once until it does. So the longer of the two ticks is enough
for the sessions of the whole playback to stop.
-/

namespace Choreo

/-! ## The steps of a playhead -/

namespace Playhead

variable {h head : Playhead} {v : Surroundings} {s : Session}

theorem not_executed_of_stopped? (hstop : s.stopped? v.allowed ≠ none) (index : Nat) :
    .reach (.executed index) ∉ (h.step v s).effects := by
  have houtcome := h.step_outcome v s
  generalize h.step v s = move at houtcome
  cases houtcome with
  | refused | stopped => exact fun hmem => by cases List.mem_singleton.1 hmem
  | began => exact fun hmem => by cases List.mem_singleton.1 hmem
  | rested | passed => exact List.not_mem_nil
  | resting _ hnone | ranOut _ hnone | wentBack _ hnone | wentOn _ hnone | held _ hnone
  | cut _ hnone | suspended _ hnone | waited _ hnone | done _ hnone => exact absurd hnone hstop

/-- While the host forbids playback a playhead cancels its session, or goes on at once. -/
theorem step_of_forbidden (hforbidden : v.allowed = false)
    (hflag : s.cancelled = true ↔ s.status = .cancelled)
    (hopening : h.stage = .opening → s.status = .stopped) :
    (∃ head, (h.step v s).next = .again head) ∨
      (h.step v s).next = .ended ∧ (h.step v s).session.status = .cancelled := by
  have hstop := stopped?_ne_none_of_forbidden (s := s) hforbidden
  have hbegins := fun hstage => (step_of_opening (v := v) hstage (hopening hstage) hflag).1
  have hcancels := fun hlooks => step_status_of_forbidden (h := h) hlooks hforbidden hflag
  have houtcome := h.step_outcome v s
  generalize h.step v s = move at houtcome hbegins hcancels
  cases houtcome with
  | refused hstage =>
    have hplaying : (if s.status = .cancelled then Status.cancelled else .stopped) = .playing :=
      hbegins hstage
    split at hplaying <;> cases hplaying
  | stopped hlooks => exact .inr ⟨rfl, hcancels hlooks⟩
  | began | rested | passed => exact .inl ⟨_, rfl⟩
  | resting _ hnone | ranOut _ hnone | wentBack _ hnone | wentOn _ hnone | held _ hnone
  | cut _ hnone | suspended _ hnone | waited _ hnone | done _ hnone => exact absurd hnone hstop

/-- A playhead goes to sleep for a tick at most. -/
theorem sleepMillis_of_next {n : Nat} (htick : v.tick = .ofMillis n) {time : Duration}
    (hnext : (h.step v s).next = .sleep time head) : time.sleepMillis ≤ n := by
  have hnanos : (Duration.ofMillis n).nanos ≤ n * 1000000 := Nat.min_le_left _ _
  have hrest := Duration.sleepMillis_ofMillis_le n
  have hnap (head : Playhead) := head.sleepMillis_nap_le n
  rw [← htick] at hnanos hrest hnap
  have houtcome := h.step_outcome v s
  generalize h.step v s = move at houtcome hnext
  cases houtcome with
  | resting | suspended =>
    cases hnext
    omega
  | @held c =>
    simp only [waiting] at hnext
    split at hnext
    · cases hnext
      have hshort := hnap ((h.land v.now s).charge (c.wait - s.pingOffset))
      omega
    · cases hnext
  | waited =>
    cases hnext
    have hshort := hnap (h.awake v)
    omega
  | _ => cases hnext

end Playhead

/-! ## A session that is stopping -/

theorem Place.eq_of_wakeAt {place : Place} {time wake : Nat} {head : Playhead}
    (hplace : place.wakeAt time = .asleep wake head) : place = .asleep wake head := by
  cases place with
  | asleep wake' head' =>
    unfold Place.wakeAt at hplace
    simp only at hplace
    split at hplace
    · cases hplace
    · exact hplace
  | ready | gone => cases hplace

namespace Solo

variable {solo solo' : Solo} {id : SessionId} {o : Playback.Occurrence} {limit : Nat}

theorem Phase.present {forestalled : Prop} {statuses : List Status}
    (h : solo.Phase forestalled statuses) (hactive : solo.active = true) :
    solo.place ≠ .gone := by
  intro hgone
  cases h with
  | launched hhead | begun hhead =>
    rw [hgone] at hhead
    cases hhead
  | cancelled hinactive | stopped _ hinactive =>
    rw [hinactive] at hactive
    cases hactive

/-- A session that the host does not allow to go on: it was cancelled, or its playhead is ready or will
be so up to a given millisecond, which is not over yet. -/
inductive Stopping (limit : Nat) (solo : Solo) : Prop where
  | stopped (hactive : solo.active = false) (hstatus : solo.session.status = .cancelled)
  | ready {head : Playhead} (hactive : solo.active = true) (hclock : solo.clock ≤ limit)
      (hplace : solo.place = .ready head)
  | asleep {wake : Nat} {head : Playhead} (hactive : solo.active = true)
      (hclock : solo.clock ≤ limit) (hplace : solo.place = .asleep wake head)
      (hwake : wake ≤ limit)

namespace Stopping

theorem of_past (h : solo.Stopping limit)
    (hpast : limit < solo.clock ∨ solo.place.OnTime (limit + 1)) :
    solo.active = false ∧ solo.session.status = .cancelled := by
  cases h with
  | stopped hactive hstatus => exact ⟨hactive, hstatus⟩
  | ready _ hclock hplace =>
    rcases hpast with hpast | hpast
    · omega
    · rw [hplace] at hpast
      exact hpast.elim
  | asleep _ hclock hplace hwake =>
    rcases hpast with hpast | hpast
    · omega
    · rw [hplace] at hpast
      have hlater : limit + 1 ≤ _ := hpast
      omega

/-- While a session is stopping, no time passes beyond the end of its sleep. -/
theorem passed (h : solo.Stopping limit) {time : Nat} (htime : solo.place.OnTime time) :
    { solo with clock := max solo.clock time, place := solo.place.wakeAt time }.Stopping limit := by
  cases h with
  | stopped hactive hstatus => exact .stopped hactive hstatus
  | ready _ _ hplace =>
    rw [hplace] at htime
    exact htime.elim
  | @asleep wake head hactive hclock hplace hwake =>
    rw [hplace] at htime
    have hle : time ≤ wake := htime
    have hclock' : max solo.clock time ≤ limit := by omega
    by_cases hdue : wake ≤ time
    · have hready : solo.place.wakeAt time = .ready head := by simp [hplace, Place.wakeAt, hdue]
      exact .ready hactive hclock' hready
    · have hasleep : solo.place.wakeAt time = .asleep wake head := by
        simp [hplace, Place.wakeAt, hdue]
      exact .asleep hactive hclock' hasleep hwake

theorem asked (h : solo.Stopping limit) {happening : Happening}
    (hasked : solo.Asked happening solo') : solo'.Stopping limit := by
  have hstays {t : Session} (hactive : solo.active = true) :
      { solo with session := t }.Stopping limit := by
    cases h with
    | stopped hinactive =>
      rw [hinactive] at hactive
      cases hactive
    | ready _ hclock hplace => exact .ready hactive hclock hplace
    | asleep _ hclock hplace hwake => exact .asleep hactive hclock hplace hwake
  cases hasked with
  | paused hactive | resumed hactive | sought hactive => exact hstays hactive
  | cancelled =>
    obtain ⟨_, hcancel, -⟩ := solo.session.cancel?_getD
    exact .stopped rfl (by rw [hcancel])

/-- A playhead that goes on while the host forbids playback goes on at once until it stops. -/
theorem played (h : solo.Stopping limit) {forestalled : Prop} {statuses : List Status}
    (hphase : solo.Phase forestalled statuses)
    (hflag : solo.session.cancelled = true ↔ solo.session.status = .cancelled) {head : Playhead}
    (hplace : solo.place = .ready head) {v : Surroundings}
    (hforbidden : solo.clock ≤ limit → v.allowed = false) :
    (solo.after (head.step v solo.session)).Stopping limit := by
  cases h with
  | stopped hactive hstatus =>
    refine .stopped ?_ ((hphase.status_of_inactive hactive hplace v).trans hstatus)
    simp [Solo.after, hactive]
  | ready hactive hclock =>
    have hopening : head.stage = .opening → solo.session.status = .stopped := by
      intro hstage
      cases hphase with
      | launched _ _ _ hstatus => exact hstatus
      | begun hhead hbegun =>
        rw [Place.head?_ready hplace] at hhead
        cases hhead
        exact absurd hstage hbegun
      | cancelled hinactive | stopped _ hinactive =>
        rw [hinactive] at hactive
        cases hactive
    rcases Playhead.step_of_forbidden (hforbidden hclock) hflag hopening with
      ⟨head', hnext⟩ | ⟨hnext, hcancelled⟩
    · have hready : (solo.after (head.step v solo.session)).place = .ready head' := by
        simp [Solo.after, hnext, Next.place]
      refine .ready ?_ hclock hready
      simp [Solo.after, hactive, hnext]
    · refine .stopped ?_ hcancelled
      simp [Solo.after, hnext]
  | asleep _ _ hasleep =>
    rw [hplace] at hasleep
    cases hasleep

end Stopping

end Solo

/-! ## Every run -/

namespace Playback

variable {punctual : Prop} {settings : Settings} {history later earlier : List Occurrence}
variable {p q : Playback} {act : Act} {o : Occurrence} {id : SessionId} {solo solo' : Solo}
variable {limit : Nat}

theorem Shows.unique (h : p.Shows id solo) (h' : p.Shows id solo') : solo = solo' := by
  have hclock : solo.clock = solo'.clock := h.clock.symm.trans h'.clock
  have hsession : solo.session = solo'.session :=
    Option.some.inj (h.session.symm.trans h'.session)
  have hactive : solo.active = solo'.active := h.active.symm.trans h'.active
  have hplaces : solo.place.toList = solo'.place.toList := h.places.symm.trans h'.places
  have hplace : solo.place = solo'.place := by
    cases hplace : solo.place <;> cases hplace' : solo'.place <;>
      simp_all [Place.toList]
  cases solo
  cases solo'
  simp_all

/-- The longer of the two ticks, in milliseconds. A tick of none counts as one. -/
def longerTick (settings : Settings) : Nat :=
  max (max settings.playback.tick settings.playback.fastTick) 1

theorem Run.tick_le (run : Run punctual settings history p) :
    ∃ n, p.policy.tick = .ofMillis n ∧ n ≤ longerTick settings := by
  obtain ⟨hnormal, hfast⟩ := Prod.mk.inj run.ticks_eq
  unfold Policy.tick longerTick
  cases p.policy.rate with
  | normal => exact ⟨_, hnormal, by omega⟩
  | fast => exact ⟨_, hfast, by omega⟩

theorem Run.wake_le (run : Run punctual settings history p) (hshows : p.Shows id solo) {wake : Nat}
    {head : Playhead} (hplace : solo.place = .asleep wake head) :
    wake ≤ p.clock + longerTick settings := by
  induction run generalizing solo wake head with
  | start =>
    have hsession := hshows.session
    rw [(lacks_start settings id).session] at hsession
    cases hsession
  | @step history p q act run hstep ih =>
    have hlater : p.clock + longerTick settings ≤ q.clock + longerTick settings :=
      Nat.add_le_add_right hstep.clock_le _
    rcases run.apart id with ⟨hlacks, -⟩ | ⟨before, hbefore, -⟩
    · rcases hlacks.steps hstep with ⟨-, hlacks'⟩ | ⟨_, _, _, -, hlaunched⟩
      · have hsession := hshows.session
        rw [hlacks'.session] at hsession
        cases hsession
      · rw [hshows.unique hlaunched] at hplace
        cases hplace
    · obtain ⟨after, hseen, hafter⟩ := hbefore.sees hstep
      obtain rfl := hshows.unique hafter
      cases hseen with
      | beside => exact Nat.le_trans (ih hbefore hplace) hlater
      | asked hasked =>
        cases hasked with
        | _ => exact Nat.le_trans (ih hbefore hplace) hlater
      | @played head' hact hready =>
        obtain ⟨n, htick, hn⟩ := run.tick_le
        cases hnext : (head'.step p.surroundings before.session).next with
        | sleep time head'' =>
          have hsleep := Playhead.sleepMillis_of_next htick hnext
          have hwake : before.clock + time.sleepMillis = wake := by
            simp only [Solo.after, hnext, Next.place, Place.asleep.injEq] at hplace
            exact hplace.1
          have hbound := hbefore.clock
          omega
        | _ => simp [Solo.after, hnext, Next.place] at hplace
      | passed =>
        exact Nat.le_trans (ih hbefore (Place.eq_of_wakeAt hplace)) hlater

theorem Run.stopping_of_active (run : Run punctual settings history p)
    (hactive : p.isActive id = true) :
    ∃ solo, p.Shows id solo ∧ solo.Stopping (p.clock + longerTick settings) := by
  rcases run.phase id with ⟨hlacks, -⟩ | ⟨solo, hshows, -, hphase⟩
  · rw [hlacks.active] at hactive
    cases hactive
  · refine ⟨solo, hshows, ?_⟩
    have hclock := hshows.clock
    have hlive : solo.active = true := hshows.active.symm.trans hactive
    cases hplace : solo.place with
    | ready head => exact .ready hlive (by omega) hplace
    | asleep wake head => exact .asleep hlive (by omega) hplace (run.wake_le hshows hplace)
    | gone => exact absurd hplace (hphase.present hlive)

theorem Run.stopping_step (run : Run True settings history p) (hstep : Step True p act q)
    (hforbidden : p.clock ≤ limit → p.allowed = false) (hshows : p.Shows id solo)
    (hstopping : solo.Stopping limit) : ∃ solo', q.Shows id solo' ∧ solo'.Stopping limit := by
  rcases run.phase id with ⟨hlacks, -⟩ | ⟨solo₀, hshows₀, hrun, hphase⟩
  · have hsession := hshows.session
    rw [hlacks.session] at hsession
    cases hsession
  · obtain rfl := hshows.unique hshows₀
    obtain ⟨solo', hseen, hshows'⟩ := hshows.sees hstep
    refine ⟨solo', hshows', ?_⟩
    cases hseen with
    | beside => exact hstopping
    | asked hasked => exact hstopping.asked hasked
    | played _ hplace =>
      rw [hshows.clock] at hforbidden
      exact hstopping.played hphase hrun.cancelled_iff hplace hforbidden
    | passed _ htime => exact hstopping.passed (htime trivial)

theorem Run.stopping (run : Run True settings (later ++ o :: earlier) p)
    (hactive : o.after.isActive id = true)
    (hforbidden : ∀ o' ∈ later, o'.before.clock ≤ o.after.clock + longerTick settings →
      o'.before.allowed = false) :
    ∃ solo, p.Shows id solo ∧ solo.Stopping (o.after.clock + longerTick settings) := by
  induction later generalizing p with
  | nil =>
    cases run with
    | step run hstep => exact (run.step hstep).stopping_of_active hactive
  | cons o' later ih =>
    cases run with
    | step run hstep =>
      obtain ⟨solo, hshows, hstopping⟩ :=
        ih run fun o'' ho'' => hforbidden o'' (List.mem_cons_of_mem _ ho'')
      exact run.stopping_step hstep (hforbidden _ List.mem_cons_self) hshows hstopping

theorem not_executed_of_stopped? (hstep : Step punctual o.before o.act o.after)
    (hstop : ∀ s, o.before.session? id = some s → s.stopped? o.before.allowed ≠ none)
    (index : Nat) : .reached id (.executed index) ∉ o.events := by
  intro hmem
  rw [hstep.events] at hmem
  obtain ⟨head, s, -, hs, hreached⟩ := exists_play_of_reached hmem
  exact Playhead.not_executed_of_stopped? (hstop s hs) index (reach_of_mem_events hreached).2

theorem Run.not_executed_of_isCancelled (run : Run punctual settings history o.before)
    (hstep : Step punctual o.before o.act o.after) (hcancelled : o.before.IsCancelled id)
    (index : Nat) : .reached id (.executed index) ∉ o.events := by
  refine not_executed_of_stopped? hstep (fun s hs => ?_) index
  obtain ⟨s', hs', hstatus⟩ := hcancelled
  rw [hs] at hs'
  cases hs'
  obtain ⟨solo, -, rfl, hrun⟩ := run.apart_of_session? hs
  rw [Session.stopped?, if_pos (hrun.cancelled_iff.2 hstatus)]
  exact Option.some_ne_none _

theorem IsCancelled.origin_ne (hcancelled : o.before.IsCancelled id)
    (hstep : Step punctual o.before o.act o.after) {envelope : Envelope}
    (hsent : .sent envelope ∈ o.events) : envelope.origin ≠ some id := by
  rw [hstep.events] at hsent
  cases hact : o.act with
  | run task =>
    rw [hact, actEvents] at hsent
    intro horigin
    rw [origin_of_mem_taskEvents hsent] at horigin
    exact hcancelled.not_mem_taskEvents horigin hsent
  | serve request granted | pass time =>
    rw [hact] at hsent
    cases hsent

theorem Step.refused_of_forbidden (hforbidden : p.allowed = false) {script : Script} {start : Start}
    {granted : Bool} (hstep : Step punctual p (.serve (.launch script start) granted) q) :
    granted = false ∧ p.launch script start = (p, .error .notAllowed) := by
  have hlaunch : p.launch script start = (p, .error .notAllowed) := by
    rw [launch, hforbidden, if_neg Bool.false_ne_true]
  cases hstep with
  | serve => exact ⟨by rw [Playback.serve, hlaunch]; rfl, hlaunch⟩

theorem Run.cut_of_mem (run : Run punctual settings (later ++ earlier) p) (ho : o ∈ later) :
    ∃ between, between ⊆ later ∧ Run punctual settings (between ++ earlier) o.before ∧
      Step punctual o.before o.act o.after := by
  obtain ⟨first, between, rfl⟩ := List.append_of_mem ho
  rw [List.append_assoc] at run
  obtain ⟨hrun, hstep⟩ := run.cut
  exact ⟨between, fun _ hmem => List.mem_append_right _ (List.mem_cons_of_mem _ hmem), hrun, hstep⟩

/-- After the longer of the two ticks a session that was active is cancelled, if the host did not allow
playback in the meantime. -/
theorem Run.stopped_past (run : Run True settings (later ++ o :: earlier) p)
    (hactive : o.after.isActive id = true)
    (hforbidden : ∀ o' ∈ later, o'.before.clock ≤ o.after.clock + longerTick settings →
      o'.before.allowed = false)
    (hpast : o.after.clock + longerTick settings < p.clock ∨
      p.OnTime (o.after.clock + longerTick settings + 1)) :
    p.IsCancelled id ∧ p.isActive id = false := by
  obtain ⟨solo, hshows, hstopping⟩ := run.stopping hactive hforbidden
  rw [hshows.clock] at hpast
  obtain ⟨hinactive, hcancelled⟩ := hstopping.of_past (hpast.imp_right hshows.onTime)
  exact ⟨hshows.isCancelled_iff.2 hcancelled, hshows.active.trans hinactive⟩

/-- If the host forbids playback from the end of a step on, for as long as the longer of the two ticks,
then all that time no command is executed and every launch is refused. When it is over, the sessions
that were active at its beginning are cancelled and not active any more. They execute no command from
then on, and nothing is sent on their behalf once it is over. -/
theorem Run.forced_stop (run : Run True settings (later ++ o :: earlier) p)
    (hforbidden : ∀ o' ∈ later, o'.before.clock ≤ o.after.clock + longerTick settings →
      o'.before.allowed = false) :
    (∀ o' ∈ later, o'.before.clock ≤ o.after.clock + longerTick settings →
      (∀ id index, .reached id (.executed index) ∉ o'.events) ∧
      ∀ script start granted, o'.act = .serve (.launch script start) granted →
        granted = false ∧ o'.before.launch script start = (o'.before, .error .notAllowed)) ∧
    ∀ id, o.after.isActive id = true →
      (o.after.clock + longerTick settings < p.clock ∨
          p.OnTime (o.after.clock + longerTick settings + 1) →
        p.IsCancelled id ∧ p.isActive id = false) ∧
      ∀ o' ∈ later, (∀ index, .reached id (.executed index) ∉ o'.events) ∧
        (o.after.clock + longerTick settings < o'.before.clock →
          ∀ envelope, .sent envelope ∈ o'.events → envelope.origin ≠ some id) := by
  have hquiet (o' : Occurrence) (ho' : o' ∈ later)
      (hclock : o'.before.clock ≤ o.after.clock + longerTick settings) (id : SessionId)
      (index : Nat) : .reached id (.executed index) ∉ o'.events := by
    obtain ⟨-, -, -, hstep⟩ := run.cut_of_mem ho'
    exact not_executed_of_stopped? hstep (fun s _ =>
      Playhead.stopped?_ne_none_of_forbidden (v := o'.before.surroundings)
        (hforbidden o' ho' hclock)) index
  refine ⟨fun o' ho' hclock => ⟨hquiet o' ho' hclock, fun script start granted hact => ?_⟩,
    fun id hactive => ⟨run.stopped_past hactive hforbidden, fun o' ho' => ?_⟩⟩
  · obtain ⟨-, -, -, hstep⟩ := run.cut_of_mem ho'
    rw [hact] at hstep
    exact hstep.refused_of_forbidden (hforbidden o' ho' hclock)
  · obtain ⟨between, hbetween, hrun, hstep⟩ := run.cut_of_mem ho'
    by_cases hclock : o'.before.clock ≤ o.after.clock + longerTick settings
    · exact ⟨hquiet o' ho' hclock id, fun hlater => absurd hclock (Nat.not_le.2 hlater)⟩
    · have hcancelled : o'.before.IsCancelled id :=
        (hrun.stopped_past hactive (fun o'' ho'' => hforbidden o'' (hbetween ho''))
          (.inl (Nat.not_le.1 hclock))).1
      exact ⟨hrun.not_executed_of_isCancelled hstep hcancelled,
        fun _ envelope hsent => hcancelled.origin_ne hstep hsent⟩

def curfew : List Occurrence × Playback :=
  let first := ask (.launch (.inline "first" "/a <wait.1>") (.top none)) ([], start {})
  let begun := follow (fun _ => 0) 10 first.1 first.2
  let second := ask (.launch (.inline "second" "/b <wait.1>") (.top none)) begun
  let both := follow (fun _ => 0) 10 second.1 second.2
  ask (.allow false) (wait 20 (ask (.pause ⟨2⟩) both))

theorem run_curfew : Run True {} curfew.1 curfew.2 := by
  have hfirst := Run.launched True {} (.inline "first" "/a <wait.1>") (.top none)
  have hsecond := (hfirst.follow (fun _ => 0) 10).ask
    (.launch (.inline "second" "/b <wait.1>") (.top none))
  have hpaused := (hsecond.follow (fun _ => 0) 10).ask (.pause ⟨2⟩)
  exact (hpaused.wait 20 fun _ => by decide +kernel).ask (.allow false)

theorem forced_stop_curfew :
    let head : Playhead := { stage := .wait, budget := 1000000000, lastCheck := 0 }
    let woken := wait 33 (ask (.launch (.inline "third" "/c") (.top none)) curfew)
    let p := { woken.2 with ready := [.play ⟨2⟩ head] }.runTask (.play ⟨1⟩ head)
    let q := { p with ready := [] }.runTask (.play ⟨2⟩ head)
    curfew.2.clock = 20 ∧ curfew.2.isActive ⟨1⟩ = true ∧ curfew.2.isActive ⟨2⟩ = true ∧
      q.IsCancelled ⟨1⟩ ∧ q.isActive ⟨1⟩ = false ∧ q.IsCancelled ⟨2⟩ ∧ q.isActive ⟨2⟩ = false := by
  intro head woken p q
  have hready : woken.2.ready = [] ++ .play ⟨1⟩ head :: [.play ⟨2⟩ head] := by decide +kernel
  have hready' : p.ready = [] ++ .play ⟨2⟩ head :: [] := by decide +kernel
  have hrefused := run_curfew.ask (.launch (.inline "third" "/c") (.top none))
  have hwoken := hrefused.wait 33 fun _ => by decide +kernel
  have hrun := (hwoken.step (.run hready)).step (.run hready')
  have hactive : curfew.2.isActive ⟨1⟩ = true ∧ curfew.2.isActive ⟨2⟩ = true := by decide +kernel
  have hpast : q.OnTime (curfew.2.clock + longerTick {} + 1) := by decide +kernel
  have hforbidden : woken.2.allowed = false ∧ p.allowed = false := by decide +kernel
  have hstop := @Run.forced_stop {} [_, _, _, _] _ _ _ hrun (by
    simp only [List.forall_mem_cons]
    exact ⟨fun _ => hforbidden.2, fun _ => hforbidden.1, fun _ => rfl, fun _ => rfl,
      fun _ hmem => by cases hmem⟩)
  obtain ⟨hfirst, hinactive⟩ := (hstop.2 ⟨1⟩ hactive.1).1 (.inr hpast)
  obtain ⟨hsecond, hinactive'⟩ := (hstop.2 ⟨2⟩ hactive.2).1 (.inr hpast)
  exact ⟨by decide +kernel, hactive.1, hactive.2, hfirst, hinactive, hsecond, hinactive'⟩

def briefTicks : Settings := { playback := { tick := 0, fastTick := 0 } }

/-- Even with ticks of no length a session sleeps for a millisecond. Until then it does not notice that
the host forbids playback. -/
theorem forbidden_unnoticed :
    let launched := ask (.launch (.inline "song" "/a <wait.1>") (.top none)) ([], start briefTicks)
    let begun := follow (fun _ => 0) 10 launched.1 launched.2
    let forbidden := ask (.allow false) begun
    Run True briefTicks forbidden.1 forbidden.2 ∧ forbidden.2.allowed = false ∧
      forbidden.2.isActive ⟨1⟩ = true ∧ ¬forbidden.2.IsCancelled ⟨1⟩ ∧
      forbidden.2.OnTime (forbidden.2.clock +
        max briefTicks.playback.tick briefTicks.playback.fastTick + 1) := by
  intro launched begun forbidden
  have hlaunched := Run.launched True briefTicks (.inline "song" "/a <wait.1>") (.top none)
  have hlive : (forbidden.2.session? ⟨1⟩).any (·.status = .playing) = true := by decide +kernel
  refine ⟨(hlaunched.follow (fun _ => 0) 10).ask (.allow false), rfl, by decide +kernel, ?_,
    by decide +kernel⟩
  rintro ⟨s, hs, hcancelled⟩
  rw [hs, Option.any_some, hcancelled] at hlive
  cases hlive

end Playback

end Choreo
