import Choreo.Proofs.Playback.Projection

/-!
# What a step does to what sessions share

Sessions share the policy, the queue of tasks, those that sleep and the journal. `runTask_eq` says all
that a task does to any of them, and `serve_cases` what a request does, so that nothing that is proved
of them has to look into tasks or requests again.
-/

namespace Choreo

/-! ## Effects -/

def Effect.onPolicy (id : SessionId) (policy : Policy) : Effect → Policy
  | .arm flag => policy.arm flag id
  | .disarmAll => policy.disarmAll
  | _ => policy

def Effect.task? (id : SessionId) : Effect → Option Task
  | .pad padding => some (.pad id padding.payload padding.count)
  | _ => none

def Effect.sleeper? (clock : Nat) (host : HostCommands) (id : SessionId) (epoch : Nat) :
    Effect → Option Sleeper
  | .countdown lead offset =>
    some ⟨clock + offset.sleepMillis, .countdown id epoch (host.countdownFor lead)⟩
  | _ => none

theorem Effect.eq_pad_of_mem {effects : List Effect} {id : SessionId} {task : Task}
    (hmem : task ∈ effects.filterMap (Effect.task? id)) :
    ∃ padding : Padding, task = .pad id padding.payload padding.count := by
  obtain ⟨effect, -, heffect⟩ := List.mem_filterMap.1 hmem
  cases effect with
  | pad padding => exact ⟨padding, (Option.some.inj heffect).symm⟩
  | _ => cases heffect

theorem Effect.eq_countdown_of_mem {effects : List Effect} {clock : Nat} {host : HostCommands}
    {id : SessionId} {epoch : Nat} {sleeper : Sleeper}
    (hmem : sleeper ∈ effects.filterMap (Effect.sleeper? clock host id epoch)) :
    ∃ lead offset : Duration, sleeper =
      ⟨clock + offset.sleepMillis, .countdown id epoch (host.countdownFor lead)⟩ := by
  obtain ⟨effect, -, heffect⟩ := List.mem_filterMap.1 hmem
  cases effect with
  | countdown lead offset => exact ⟨lead, offset, (Option.some.inj heffect).symm⟩
  | _ => cases heffect

/-- What is put into the queue before all other tasks, so that nothing comes in between. -/
def Next.front (id : SessionId) : Next → List Task
  | .again head => [.play id head]
  | _ => []

def Next.back (id : SessionId) : Next → List Task
  | .yield head => [.play id head]
  | _ => []

/-- The time between the end of the owner of a flag and the release of the flag. -/
def AutoFlag.grace (settings : Settings) : AutoFlag → Duration
  | .busy => settings.playback.busyGraceTime
  | .mare => settings.playback.mareGraceTime

/-- The same, in the milliseconds that the settings say. -/
def AutoFlag.graceMillis (settings : Settings) : AutoFlag → Nat
  | .busy => settings.playback.busyGrace
  | .mare => settings.playback.mareGrace

/-- A time of some milliseconds takes as many, if their number fits into 64 bits. -/
theorem Duration.sleepMillis_ofMillis {n : Nat} (h : n < UInt64.size) :
    (ofMillis n).sleepMillis = n := by
  have hsize : UInt64.size = 18446744073709551616 := rfl
  have hnanos : (ofMillis n).nanos = n * 1000000 :=
    Nat.min_eq_left (show n * 1000000 ≤ 18446744073709551615999999999 by omega)
  have hnear : (ofMillis n).seconds < farthestSecond := by
    rw [seconds, hnanos, farthestSecond]
    omega
  rw [sleepMillis, if_pos hnear, ceilMillis, hnanos]
  omega

theorem AutoFlag.sleepMillis_grace {settings : Settings} {flag : AutoFlag}
    (h : flag.graceMillis settings < UInt64.size) :
    (flag.grace settings).sleepMillis = flag.graceMillis settings := by
  have hgrace : flag.grace settings = .ofMillis (flag.graceMillis settings) := by cases flag <;> rfl
  rw [hgrace, Duration.sleepMillis_ofMillis h]

def AutoFlag.farewell (settings : Settings) : AutoFlag → String
  | .busy => settings.host.busyOff
  | .mare => settings.host.mareOn

namespace Playback

variable {punctual : Prop} {settings : Settings} {history : List Occurrence}
variable {p q : Playback} {id : SessionId} {s : Session} {act : Act}

theorem perform_eq (hs : p.session? id = some s) (effect : Effect) :
    perform id p effect =
      { p with
        policy := effect.onPolicy id p.policy
        ready := p.ready ++ (effect.task? id).toList
        sleepers := p.sleepers ++
          (effect.sleeper? p.clock p.settings.host id s.epoch).toList
        journal := p.written (effect.event? id s).toList } := by
  cases effect with
  | send command mode =>
    simp only [perform, sendFrom, hs, Effect.event?]
    split <;> simp [Effect.onPolicy, Effect.task?, Effect.sleeper?, record, written]
  | countdown lead offset =>
    simp [perform, hs, Playback.sleep, Effect.onPolicy, Effect.task?, Effect.sleeper?,
      Effect.event?, written]
  | _ =>
    simp [perform, enqueue, record, Effect.onPolicy, Effect.task?, Effect.sleeper?,
      Effect.event?, written]

theorem foldl_perform_eq (hs : p.session? id = some s) (effects : List Effect) :
    effects.foldl (perform id) p =
      { p with
        policy := effects.foldl (Effect.onPolicy id) p.policy
        ready := p.ready ++ effects.filterMap (Effect.task? id)
        sleepers := p.sleepers ++
          effects.filterMap (Effect.sleeper? p.clock p.settings.host id s.epoch)
        journal := p.written (effects.filterMap (Effect.event? id s)) } := by
  induction effects generalizing p with
  | nil => simp [written]
  | cons effect effects ih =>
    have hs' : (perform id p effect).session? id = some s := by
      rw [(beside_perform id p effect).session?, hs]
    have hcons {α : Type} (f : Effect → Option α) :
        (effect :: effects).filterMap f = (f effect).toList ++ effects.filterMap f := by
      rw [List.filterMap_cons]
      cases f effect <;> rfl
    rw [List.foldl_cons, ih hs', perform_eq hs]
    simp only [hcons, written, List.foldl_cons, List.map_append, List.reverse_append,
      List.append_assoc]

/-! ## Going on later -/

def release? (p : Playback) (id : SessionId) (flag : AutoFlag) : Option Sleeper :=
  (p.policy.ticket? flag id).map fun ticket =>
    ⟨p.clock + (flag.grace p.settings).sleepMillis, .release ticket (flag.farewell p.settings)⟩

theorem eq_release_of_mem {flags : List AutoFlag} {sleeper : Sleeper}
    (hmem : sleeper ∈ flags.filterMap (p.release? id)) :
    ∃ flag ticket, p.policy.ticket? flag id = some ticket ∧ sleeper =
      ⟨p.clock + (flag.grace p.settings).sleepMillis,
        .release ticket (flag.farewell p.settings)⟩ := by
  obtain ⟨flag, -, hflag⟩ := List.mem_filterMap.1 hmem
  obtain ⟨ticket, hticket, rfl⟩ := Option.map_eq_some_iff.1 hflag
  exact ⟨flag, ticket, hticket, rfl⟩

def nextSleepers (p : Playback) (id : SessionId) : Next → List Sleeper
  | .sleep time head => [⟨p.clock + time.sleepMillis, .play id head⟩]
  | .ended => [.busy, .mare].filterMap (p.release? id)
  | _ => []

theorem planRelease_eq (p : Playback) (id : SessionId) (flag : AutoFlag) :
    p.planRelease id flag (flag.grace p.settings) (flag.farewell p.settings) =
      { p with sleepers := p.sleepers ++ (p.release? id flag).toList } := by
  unfold planRelease release?
  cases p.policy.ticket? flag id with
  | none => simp
  | some ticket => rfl

theorem resumeLater_eq (p : Playback) (id : SessionId) (next : Next) :
    p.resumeLater id next =
      { p with
        active := if next = .ended then p.active.filter (· ≠ id) else p.active
        ready := next.front id ++ p.ready ++ next.back id
        sleepers := p.sleepers ++ p.nextSleepers id next } := by
  cases next with
  | ended =>
    have hbusy := planRelease_eq { p with active := p.active.filter (· ≠ id) } id .busy
    have hmare := planRelease_eq
      { p with
        active := p.active.filter (· ≠ id)
        sleepers := p.sleepers ++ (p.release? id .busy).toList } id .mare
    have hfilter : [AutoFlag.busy, .mare].filterMap (p.release? id) =
        (p.release? id .busy).toList ++ (p.release? id .mare).toList := by
      simp only [List.filterMap_cons, List.filterMap_nil]
      cases p.release? id .busy <;> cases p.release? id .mare <;> rfl
    simp only [AutoFlag.grace, AutoFlag.farewell] at hbusy hmare
    simp only [resumeLater, retire, hbusy, nextSleepers, hfilter, Next.front, Next.back,
      List.nil_append, List.append_nil, if_true, ← List.append_assoc]
    exact hmare
  | again head => simp [resumeLater, Next.front, Next.back, nextSleepers]
  | yield head => simp [resumeLater, enqueue, Next.front, Next.back, nextSleepers]
  | sleep time head => simp [resumeLater, Playback.sleep, Next.front, Next.back, nextSleepers]

/-! ## Tasks -/

def taskPolicy (p : Playback) : Task → Policy
  | .play id head =>
    match p.session? id with
    | none => p.policy
    | some s => (head.step p.surroundings s).effects.foldl (Effect.onPolicy id) p.policy
  | .release ticket _ => (p.policy.release ticket).1
  | _ => p.policy

def withSession (sessions : List Session) (id : SessionId) (s : Session) : List Session :=
  match id.number with
  | 0 => sessions
  | n + 1 => sessions.set n s

theorem setSession_eq_withSession (p : Playback) (id : SessionId) (s : Session) :
    p.setSession id s = { p with sessions := withSession p.sessions id s } := by
  unfold setSession withSession
  cases id.number <;> rfl

def taskSessions (p : Playback) : Task → List Session
  | .play id head =>
    match p.session? id with
    | none => p.sessions
    | some s => withSession p.sessions id (head.step p.surroundings s).session
  | _ => p.sessions

def taskActive (p : Playback) : Task → List SessionId
  | .play id head =>
    match p.session? id with
    | none => p.active
    | some s =>
      if (head.step p.surroundings s).next = .ended then p.active.filter (· ≠ id) else p.active
  | _ => p.active

def taskFront (p : Playback) : Task → List Task
  | .play id head =>
    match p.session? id with
    | none => []
    | some s => (head.step p.surroundings s).next.front id
  | _ => []

def taskBack (p : Playback) : Task → List Task
  | .play id head =>
    match p.session? id with
    | none => []
    | some s =>
      (head.step p.surroundings s).effects.filterMap (Effect.task? id) ++
        (head.step p.surroundings s).next.back id
  | _ => []

def taskSleepers (p : Playback) : Task → List Sleeper
  | .play id head =>
    match p.session? id with
    | none => []
    | some s =>
      (head.step p.surroundings s).effects.filterMap (Effect.sleeper? p.clock p.settings.host id
          (head.step p.surroundings s).session.epoch) ++
        { p with policy := p.taskPolicy (.play id head) }.nextSleepers id
          (head.step p.surroundings s).next
  | .pad id payload (left + 1) =>
    match p.known? id with
    | none => []
    | some s =>
      if s.status = .cancelled then []
      else [⟨p.clock + Padding.spacing.sleepMillis, .pad id payload left⟩]
  | _ => []

theorem runTask_eq (p : Playback) (task : Task) :
    p.runTask task =
      { p with
        policy := p.taskPolicy task
        sessions := p.taskSessions task
        active := p.taskActive task
        ready := p.taskFront task ++ p.ready ++ p.taskBack task
        sleepers := p.sleepers ++ p.taskSleepers task
        journal := p.written (p.taskEvents task) } := by
  cases task with
  | play id head =>
    simp only [taskPolicy, taskSessions, taskActive, taskFront, taskBack, taskSleepers, taskEvents,
      runTask, runPlayhead]
    cases hs : p.session? id with
    | none => simp [written]
    | some s =>
      simp only
      have hset := session?_setSession_self hs (head.step p.surroundings s).session
      rw [resumeLater_eq, foldl_perform_eq hset, setSession_eq_withSession]
      simp only [List.append_assoc]
      rfl
  | pad id payload left =>
    simp only [taskPolicy, taskSessions, taskActive, taskFront, taskBack, taskEvents, runTask,
      runPad]
    cases left with
    | zero => simp [taskSleepers, written]
    | succ left =>
      cases hknown : p.known? id with
      | none => simp [taskSleepers, hknown, written]
      | some s =>
        have hs := session?_of_known? hknown
        simp only [taskSleepers, hknown]
        split
        · simp [written]
        · next hlive => simp [sendFrom, hs, hlive, record, Playback.sleep, written]
  | countdown id epoch command =>
    simp only [taskPolicy, taskSessions, taskActive, taskFront, taskBack, taskSleepers, taskEvents,
      runTask, runCountdown]
    cases p.isActive id with
    | false => simp [written]
    | true =>
      cases hs : p.session? id with
      | none => simp [written]
      | some s =>
        simp only [if_true]
        split
        · next hplaying => simp [sendFrom, hs, hplaying.1, record, written]
        · simp [written]
  | release ticket command =>
    simp only [taskPolicy, taskSessions, taskActive, taskFront, taskBack, taskSleepers, taskEvents,
      runTask, runRelease, Policy.release]
    split <;> simp [written, send, record]

theorem runTask_take_eq (p : Playback) (before after : List Task) (task : Task) :
    { p with ready := before ++ after }.runTask task =
      { p with
        policy := p.taskPolicy task
        sessions := p.taskSessions task
        active := p.taskActive task
        ready := p.taskFront task ++ (before ++ after) ++ p.taskBack task
        sleepers := p.sleepers ++ p.taskSleepers task
        journal := p.written (p.taskEvents task) } := by
  rw [runTask_eq]
  cases task with
  | pad id payload left => cases left <;> rfl
  | _ => rfl

theorem exists_play_of_reached {milestone : Milestone}
    (hreached : .reached id milestone ∈ p.actEvents act) :
    ∃ head s, act = .run (.play id head) ∧ p.session? id = some s ∧
      .reached id milestone ∈ (head.step p.surroundings s).events id := by
  cases act with
  | serve request granted => cases hreached
  | pass time => cases hreached
  | run task =>
    rw [actEvents] at hreached
    cases task with
    | play i head =>
      simp only [taskEvents] at hreached
      split at hreached
      · cases hreached
      · next s hs =>
        obtain ⟨rfl, -⟩ := reach_of_mem_events hreached
        exact ⟨head, s, rfl, hs, hreached⟩
    | pad i payload left =>
      simp only [taskEvents] at hreached
      split at hreached
      · split at hreached <;> simp at hreached
      · cases hreached
    | countdown i epoch command =>
      simp only [taskEvents] at hreached
      split at hreached
      · split at hreached <;> simp at hreached
      · cases hreached
    | release ticket command =>
      simp only [taskEvents] at hreached
      split at hreached <;> simp at hreached

/-! ## Requests -/

def Request.onPolicy (policy : Policy) : Request → Policy
  | .setRate rate => { policy with rate }
  | .setIgnoreLooping ignore => { policy with ignoreLooping := ignore }
  | .setIgnoreCountdown ignore => { policy with ignoreCountdown := ignore }
  | .arm id flag => policy.arm flag id
  | .disarmAll => policy.disarmAll
  | _ => policy

/-- A request puts nothing to sleep, and nothing into the queue but the playhead of a new session. -/
theorem serve_cases (p : Playback) (request : Request) :
    (∃ script start lines, request = .launch script start ∧
        (p.serve request).1 = p.launched script start lines) ∨
      ∃ sessions active held allowed, (p.serve request).1 =
        { p with policy := request.onPolicy p.policy, sessions, active, held, allowed } := by
  have hchange (id : SessionId) (change : Session → Option Session) :
      ∃ sessions active held allowed, (p.change id change).1 =
        { p with sessions, active, held, allowed } := by
    unfold Playback.change changeFound
    split
    · split
      · exact ⟨p.sessions, p.active, p.held, p.allowed, rfl⟩
      · rw [setSession_eq]
        exact ⟨_, p.active, p.held, p.allowed, rfl⟩
    · exact ⟨p.sessions, p.active, p.held, p.allowed, rfl⟩
  cases request with
  | launch script start =>
    rcases launch_cases p script start with hrefused | ⟨lines, hlaunched⟩
    · rw [hrefused]
      exact .inr ⟨p.sessions, p.active, p.held, p.allowed, rfl⟩
    · rw [hlaunched]
      exact .inl ⟨script, start, lines, rfl, rfl⟩
  | pause i | resume i | seek i line => exact .inr (hchange i _)
  | cancel i =>
    refine .inr ?_
    rw [serve, cancel_eq]
    split
    · split
      · exact ⟨p.sessions, _, p.held, p.allowed, rfl⟩
      · rw [setSession_eq]
        exact ⟨_, _, p.held, p.allowed, rfl⟩
    · exact ⟨p.sessions, p.active, p.held, p.allowed, rfl⟩
  | _ => exact .inr ⟨p.sessions, p.active, _, _, rfl⟩

def actPolicy (p : Playback) : Act → Policy
  | .serve request _ => request.onPolicy p.policy
  | .run task => p.taskPolicy task
  | .pass _ => p.policy

theorem Step.policy (hstep : Step punctual p act q) : q.policy = p.actPolicy act := by
  cases hstep with
  | serve request =>
    rcases p.serve_cases request with ⟨script, start, lines, rfl, hserve⟩ | ⟨_, _, _, _, hserve⟩
    · rw [hserve]
      rfl
    · rw [hserve]
      rfl
  | run hready =>
    rw [runTask_take_eq]
    rfl
  | pass => rfl

/-! ## Ticks -/

def ticks (policy : Policy) : Duration × Duration := (policy.normalTick, policy.fastTick)

theorem ticks_setFlag (policy : Policy) (flag : AutoFlag) (state : FlagState) :
    ticks (policy.setFlag flag state) = ticks policy := by
  cases flag <;> rfl

theorem ticks_foldl_onPolicy (id : SessionId) (effects : List Effect) (policy : Policy) :
    ticks (effects.foldl (Effect.onPolicy id) policy) = ticks policy := by
  induction effects generalizing policy with
  | nil => rfl
  | cons effect effects ih =>
    rw [List.foldl_cons, ih]
    cases effect with
    | arm flag => exact ticks_setFlag policy flag _
    | _ => rfl

theorem ticks_actPolicy (p : Playback) (act : Act) : ticks (p.actPolicy act) = ticks p.policy := by
  cases act with
  | serve request granted =>
    cases request with
    | arm id flag => exact ticks_setFlag p.policy flag _
    | _ => rfl
  | run task =>
    cases task with
    | play id head =>
      simp only [actPolicy, taskPolicy]
      split
      · rfl
      · exact ticks_foldl_onPolicy id _ p.policy
    | release ticket command =>
      simp only [actPolicy, taskPolicy, Policy.release]
      split
      · exact ticks_setFlag p.policy ticket.flag _
      · rfl
    | _ => rfl
  | pass time => rfl

/-- The rate may change, but what it chooses from never does. -/
theorem Run.ticks_eq (run : Run punctual settings history p) :
    ticks p.policy = (.ofMillis (max settings.playback.tick 1),
      .ofMillis (max settings.playback.fastTick 1)) := by
  induction run with
  | start => rfl
  | step run hstep ih => rw [hstep.policy, ticks_actPolicy, ih]

theorem Run.tick_eq (run : Run punctual settings history p) : ∃ n, p.policy.tick = .ofMillis n := by
  have hticks := run.ticks_eq
  unfold ticks at hticks
  obtain ⟨hnormal, hfast⟩ := Prod.mk.inj hticks
  unfold Policy.tick
  cases p.policy.rate with
  | normal => exact ⟨_, hnormal⟩
  | fast => exact ⟨_, hfast⟩

end Playback

end Choreo
