import Choreo.Proofs.Playback.Account
import Choreo.Proofs.Playback.Order

/-!
# Playing does not drift

A playhead sleeps in ticks, each of them rounded up to a millisecond, and is late by a part of one
after every command. It takes what it is late from the next wait. So the time of a command depends on
the waits before it only through their sum, however many commands, loops and ticks there were.
-/

namespace Choreo

section Story

variable {settings : Settings} {id : SessionId} {program : Program} {story : List Beat}

def Next.due (clock : Nat) : Next → Nat
  | .sleep time _ => clock + time.sleepMillis
  | _ => clock

/-! ## One step of a playhead -/

namespace Account

variable {a : Account} {time : Nat} {c : Command} {i : Nat}

def arrive (a : Account) (time : Nat) (s : Session) : Account :=
  if s.pendingSeek.isSome then a.restart time else a

theorem arrive_ping (a : Account) (time : Nat) (s : Session) : (a.arrive time s).ping = a.ping := by
  unfold arrive
  split <;> rfl

theorem charge_of_skipsWait (hcommand : program.commands[i]? = some c)
    (hskips : c.directive.skipsWait = true) :
    a.charge program settings i =
      { a with
        ping := if c.directive = .ping then settings.playback.autopingTime else a.ping } := by
  rw [charge, hcommand]
  by_cases hping : c.directive = .ping
  · simp [hping]
  · simp [hping, hskips]

theorem charge_of_not_skipsWait (hcommand : program.commands[i]? = some c)
    (hskips : c.directive.skipsWait = false) :
    a.charge program settings i =
      { a with owed := a.owed + (c.wait - a.ping).nanos, ping := .zero } := by
  have hping : c.directive ≠ .ping := by
    intro hping
    rw [hping] at hskips
    cases hskips
  rw [charge, hcommand]
  simp [hping, hskips]

theorem foldl_sent (program : Program) (settings : Settings) (time : Nat) (a : Account)
    (envelopes : List Envelope) :
    (envelopes.map Event.sent).foldl (note program settings time) a = a := by
  induction envelopes with
  | nil => rfl
  | cons _ _ ih => exact ih

theorem foldl_arrivals (program : Program) (settings : Settings) (time : Nat) (a : Account)
    (s : Session) (id : SessionId) (c : Command) :
    (s.arrivals id c).foldl (note program settings time) a = a.arrive time s := by
  have hentered (a : Account) :
      (if s.applySeek.region = some c.region then []
        else [Event.reached id (.entered c.region)]).foldl (note program settings time) a = a := by
    split <;> rfl
  rw [Session.arrivals, List.foldl_append, hentered, arrive]
  cases s.pendingSeek <;> rfl

theorem foldl_execute (program : Program) (settings : Settings) (time : Nat) (a : Account)
    (s : Session) (id : SessionId) (c : Command) (i : Nat) (envelopes : List Envelope) :
    (s.arrivals id c ++ .reached id (.executed i) :: envelopes.map Event.sent).foldl
        (note program settings time) a =
      (a.arrive time s).charge program settings i := by
  rw [List.foldl_append, foldl_arrivals, List.foldl_cons, foldl_sent]
  rfl

end Account

namespace Playhead

variable {h head : Playhead} {v : Surroundings} {s : Session} {a : Account} {clock : Nat}
variable {c : Command}

structure Timed (h : Playhead) (s : Session) (a : Account) (due : Nat) : Prop where
  ping : s.pingOffset = a.ping
  steady : a.steady = true → s.status ≠ .paused
  keeps : h.Keeps s a due

theorem Timed.not_steady (htimed : h.Timed s a clock) (hpaused : s.status = .paused) :
    a.steady = false := by
  cases hsteady : a.steady with
  | false => rfl
  | true => exact absurd hpaused (htimed.steady hsteady)

theorem Keeps.land (hkeeps : h.Keeps s a clock) (hstage : h.stage = .turn)
    (hnow : v.now = clock * 1000000) :
    (h.land v.now s).Checked clock ∧ (h.land v.now s).Settled ∧
      (h.land v.now s).Agrees (a.arrive clock s) := by
  unfold Keeps at hkeeps
  simp only [hstage] at hkeeps
  unfold Playhead.land Account.arrive
  cases hseek : s.pendingSeek with
  | none => exact ⟨hkeeps.1, hkeeps.2 hseek⟩
  | some target =>
    have hcheck : (v.now : Int) = clock * 1000000 := by
      rw [hnow]
      omega
    refine ⟨hcheck, ⟨by simp, by simp⟩, fun _ => ?_⟩
    show (v.now : Int) + 0 = clock * 1000000 + (0 : Nat)
    omega

theorem began_timed (htimed : h.Timed s a clock) (hstage : h.stage = .opening)
    (hnow : v.now = clock * 1000000) {t : Session} (hbegin : s.begin? v.now = some t)
    (id : SessionId) :
    { h with lastCheck := v.now, stage := .turn }.Timed t
      (Account.note s.program v.settings clock a (.reached id .began)) clock := by
  obtain ⟨-, -, rfl⟩ := Session.eq_of_begin? hbegin
  have hkeeps := htimed.keeps
  unfold Keeps at hkeeps
  simp only [hstage] at hkeeps
  have hcheck : (v.now : Int) = clock * 1000000 := by
    rw [hnow]
    omega
  refine ⟨htimed.ping, fun _ => by simp, hcheck, fun _ => ⟨⟨?_, ?_⟩, fun _ => ?_⟩⟩
  · show -1000000 < h.budget
    omega
  · show h.budget ≤ 0
    omega
  · show (v.now : Int) + h.budget = clock * 1000000 + (0 : Nat)
    omega

theorem wentBack_timed (htimed : h.Timed s a clock) (hstage : h.stage = .turn)
    (hnow : v.now = clock * 1000000) (hplaying : s.status ≠ .paused)
    (hcommand : s.program.commands[s.target]? = some c)
    (hback : s.program.goesBack v.ignoreLooping c) :
    { h.land v.now s with stage := .turn }.Timed ((s.execute v s.target c).1.restart v.now)
      ((a.arrive clock s).charge s.program v.settings s.target) clock := by
  have hskips : c.directive.skipsWait = true := by
    rw [hback.1]
    rfl
  have hping : c.directive ≠ .ping := by
    rw [hback.1]
    decide
  have hstatus := s.execute_restart_status v s.target c
  have hoffset := s.execute_pingOffset v s.target c
  obtain ⟨hcheck, hsettled, hagrees⟩ := htimed.keeps.land hstage hnow
  rw [Account.charge_of_skipsWait hcommand hskips, if_neg hping]
  rw [if_neg hping] at hoffset
  refine ⟨?_, fun _ => ?_, hcheck, fun _ => ⟨hsettled, hagrees⟩⟩
  · exact hoffset.trans (htimed.ping.trans (a.arrive_ping clock s).symm)
  · rw [hstatus]
    exact hplaying

theorem wentOn_timed (htimed : h.Timed s a clock) (hstage : h.stage = .turn)
    (hnow : v.now = clock * 1000000) (hplaying : s.status ≠ .paused)
    (hcommand : s.program.commands[s.target]? = some c)
    (hskips : c.directive.skipsWait = true) :
    { h.land v.now s with stage := .turn }.Timed (s.execute v s.target c).1.advance
      ((a.arrive clock s).charge s.program v.settings s.target) clock := by
  have hstatus := s.execute_advance_status v s.target c
  have hoffset := s.execute_pingOffset v s.target c
  obtain ⟨hcheck, hsettled, hagrees⟩ := htimed.keeps.land hstage hnow
  rw [Account.charge_of_skipsWait hcommand hskips]
  refine ⟨?_, fun _ => ?_, hcheck, fun _ => ⟨hsettled, hagrees⟩⟩
  · rw [htimed.ping, ← a.arrive_ping clock s] at hoffset
    exact hoffset
  · rw [hstatus]
    exact hplaying

/-- The wait of a command is added to a budget that is as good as used up. -/
theorem held_timed (htimed : h.Timed s a clock) (hstage : h.stage = .turn)
    (hnow : v.now = clock * 1000000) (hplaying : s.status ≠ .paused)
    (hcommand : s.program.commands[s.target]? = some c)
    (hskips : c.directive.skipsWait = false) {next : Next}
    (hnext : next = ((h.land v.now s).charge (c.wait - s.pingOffset)).waiting v)
    (hhead : next.head? = some head) :
    head.Timed { (s.execute v s.target c).1 with pingOffset := .zero }
      ((a.arrive clock s).charge s.program v.settings s.target) (next.due clock) := by
  have hstatus := s.execute_status v s.target c
  have hping : s.pingOffset = (a.arrive clock s).ping :=
    htimed.ping.trans (a.arrive_ping clock s).symm
  obtain ⟨hcheck, hsettled, hagrees⟩ := htimed.keeps.land hstage hnow
  have hbudget := charge_budget hsettled (c.wait - s.pingOffset)
  have hlower := hsettled.1
  rw [Account.charge_of_not_skipsWait hcommand hskips, ← hping]
  generalize h.land v.now s = landed at hcheck hsettled hagrees hbudget hlower hnext
  generalize hcharged : landed.charge (c.wait - s.pingOffset) = charged at hbudget hnext
  have hcheck' : charged.Checked clock := by
    rw [← hcharged]
    exact hcheck
  have hagrees' : charged.Agrees
      { a.arrive clock s with
        owed := (a.arrive clock s).owed + (c.wait - s.pingOffset).nanos, ping := .zero } := by
    intro hsteady
    have hlast : charged.lastCheck = landed.lastCheck := by
      rw [← hcharged]
      rfl
    calc
      (charged.lastCheck : Int) + charged.budget =
          landed.lastCheck + landed.budget + (c.wait - s.pingOffset).nanos := by
        rw [hlast, hbudget, Int.add_assoc]
      _ = (a.arrive clock s).anchor * 1000000 + (a.arrive clock s).owed +
          (c.wait - s.pingOffset).nanos := by rw [hagrees hsteady]
      _ = (a.arrive clock s).anchor * 1000000 +
          ((a.arrive clock s).owed + (c.wait - s.pingOffset).nanos : Nat) := by omega
  refine ⟨rfl, fun _ => ?_, ?_⟩
  · show (s.execute v s.target c).1.status ≠ .paused
    rw [hstatus]
    exact hplaying
  · unfold waiting at hnext
    split at hnext
    · next hpositive =>
      subst hnext
      cases hhead
      exact keeps_nap hcheck' hpositive hagrees' v.tick _
    · next hnone =>
      subst hnext
      cases hhead
      refine ⟨hcheck', ⟨?_, ?_⟩, hagrees'⟩
      · show -1000000 < charged.budget
        omega
      · show charged.budget ≤ 0
        omega

theorem step_timed (htimed : h.Timed s a clock) (hnow : v.now = clock * 1000000)
    (hflag : s.cancelled = true ↔ s.status = .cancelled) (id : SessionId)
    (hhead : (h.step v s).next.head? = some head) :
    head.Timed (h.step v s).session
      (((h.step v s).events id).foldl (Account.note s.program v.settings clock) a)
      ((h.step v s).next.due clock) := by
  have hcheck : (v.now : Int) = clock * 1000000 := by
    rw [hnow]
    omega
  have hkeeps := htimed.keeps
  have houtcome := h.step_outcome v s
  generalize h.step v s = move at houtcome hhead
  cases houtcome with
  | refused | stopped | ranOut => cases hhead
  | began hstage hbegin =>
    cases hhead
    exact began_timed htimed hstage hnow hbegin id
  | resting hstage hstop hpaused =>
    cases hhead
    unfold Keeps at hkeeps
    simp only [hstage] at hkeeps
    exact ⟨htimed.ping, htimed.steady, htimed.not_steady hpaused, fun hseek => (hkeeps.2 hseek).1⟩
  | @wentBack c hstage hstop hplaying hcommand hback =>
    cases hhead
    rw [s.wentBack_events (live_of_stopped? hflag hstop), Account.foldl_execute]
    exact wentBack_timed htimed hstage hnow hplaying hcommand hback
  | @wentOn c hstage hstop hplaying hcommand hback hskips =>
    cases hhead
    rw [s.wentOn_events (live_of_stopped? hflag hstop), Account.foldl_execute]
    exact wentOn_timed htimed hstage hnow hplaying hcommand hskips
  | @held c hstage hstop hplaying hcommand hskips =>
    rw [s.held_events (live_of_stopped? hflag hstop), Account.foldl_execute]
    exact held_timed htimed hstage hnow hplaying hcommand hskips rfl hhead
  | rested hstage =>
    cases hhead
    unfold Keeps at hkeeps
    simp only [hstage] at hkeeps
    exact ⟨htimed.ping, htimed.steady, hcheck,
      fun hseek => ⟨hkeeps.2 hseek, .of_not_steady hkeeps.1 _⟩⟩
  | cut hstage hstop hseek =>
    -- What is left of the budget does not matter, because the seek will drop it.
    cases hhead
    obtain ⟨hchecked, -, -⟩ := hkeeps.awake hstage hnow
    refine ⟨htimed.ping, htimed.steady, hchecked, ?_⟩
    intro hnone
    rw [hnone] at hseek
    cases hseek
  | suspended hstage hstop hseek hpaused =>
    cases hhead
    obtain ⟨-, hlower, -⟩ := hkeeps.awake hstage hnow
    exact ⟨htimed.ping, htimed.steady, htimed.not_steady hpaused, hlower⟩
  | waited hstage hstop hseek hplaying hbudget =>
    cases hhead
    obtain ⟨hchecked, -, hagrees⟩ := hkeeps.awake hstage hnow
    exact ⟨htimed.ping, htimed.steady, keeps_nap hchecked hbudget hagrees v.tick s⟩
  | done hstage hstop hseek hplaying hbudget =>
    cases hhead
    obtain ⟨hchecked, hlower, hagrees⟩ := hkeeps.awake hstage hnow
    exact ⟨htimed.ping, htimed.steady, hchecked, fun _ => ⟨⟨hlower, hbudget⟩, hagrees⟩⟩
  | passed hstage =>
    cases hhead
    unfold Keeps at hkeeps
    simp only [hstage] at hkeeps
    exact ⟨htimed.ping, htimed.steady, hkeeps.1, fun _ => hkeeps.2⟩

end Playhead

/-! ## The run of a session -/

def Place.due (clock : Nat) : Place → Nat
  | .asleep wake _ => wake
  | _ => clock

theorem Place.due_ready {place : Place} {head : Playhead} (hplace : place = .ready head)
    (clock : Nat) : place.due clock = clock := by
  rw [hplace]
  rfl

theorem Next.due_place (next : Next) (clock : Nat) :
    (next.place clock).due clock = next.due clock ∧ clock ≤ next.due clock := by
  cases next with
  | sleep time head => exact ⟨rfl, Nat.le_add_right _ _⟩
  | _ => exact ⟨rfl, Nat.le_refl _⟩

/-- The clock stops where the playhead wakes up, so it wakes up neither late nor early. -/
theorem Place.due_wakeAt (place : Place) {clock time : Nat} {head : Playhead}
    (hle : clock ≤ place.due clock) (hhead : place.head? = some head)
    (htime : place.OnTime time) :
    (place.wakeAt time).due (max clock time) = place.due clock ∧
      max clock time ≤ place.due clock := by
  cases place with
  | ready head => exact htime.elim
  | gone => cases hhead
  | asleep wake head =>
    have hwake : time ≤ wake := htime
    have hclock : clock ≤ wake := hle
    rw [wakeAt]
    by_cases hdue : wake ≤ time
    · rw [if_pos hdue]
      show max clock time = wake ∧ max clock time ≤ wake
      omega
    · rw [if_neg hdue]
      show wake = wake ∧ max clock time ≤ wake
      omega

namespace Solo

variable {solo solo' : Solo}

def Timed (settings : Settings) (story : List Beat) (solo : Solo) : Prop :=
  ∀ head, solo.place.head? = some head →
    solo.clock ≤ solo.place.due solo.clock ∧
      head.Timed solo.session (account solo.session.program settings story)
        (solo.place.due solo.clock)

theorem Timed.ready (h : Timed settings story solo) {head : Playhead}
    (hplace : solo.place = .ready head) :
    head.Timed solo.session (account solo.session.program settings story) solo.clock := by
  have hdue := Place.due_ready hplace solo.clock
  rw [← hdue]
  exact (h head (Place.head?_ready hplace)).2

theorem Timed.played (h : Timed settings story solo) (hordered : Ordered settings id story solo)
    (hflag : solo.session.cancelled = true ↔ solo.session.status = .cancelled) {head : Playhead}
    {v : Surroundings} (hplace : solo.place = .ready head) (hnow : v.now = solo.now)
    (hsettings : v.settings = settings) :
    Timed settings
      ((((head.step v solo.session).events id).map
        (Beat.note solo.clock v.ignoreLooping)).reverse ++ story)
      (solo.after (head.step v solo.session)) := by
  have hhead := Place.head?_ready hplace
  have htimed := (h head hhead).2
  have hdue := Place.due_ready hplace solo.clock
  have hprogram :=
    (head.step_progress id v solo.session hflag (hordered.opening head hhead)).keeps_program
  rw [hdue] at htimed
  intro head' hhead'
  have hnext : (head.step v solo.session).next.head? = some head' :=
    ((head.step v solo.session).next.head?_place solo.clock).symm.trans hhead'
  have hstep := Playhead.step_timed htimed hnow hflag id hnext
  obtain ⟨hplaceDue, hle⟩ := (head.step v solo.session).next.due_place solo.clock
  rw [hsettings, ← account_notes _ _ v.ignoreLooping, ← hprogram, ← hplaceDue] at hstep
  rw [← hplaceDue] at hle
  exact ⟨hle, hstep⟩

theorem Timed.passed (h : Timed settings story solo) {time : Nat}
    (htime : solo.place.OnTime time) :
    Timed settings story
      { solo with clock := max solo.clock time, place := solo.place.wakeAt time } := by
  intro head hhead
  rw [solo.place.head?_wakeAt time] at hhead
  obtain ⟨hle, htimed⟩ := h head hhead
  obtain ⟨hdue, hclock⟩ := solo.place.due_wakeAt hle hhead htime
  show max solo.clock time ≤ (solo.place.wakeAt time).due (max solo.clock time) ∧
    head.Timed solo.session _ ((solo.place.wakeAt time).due (max solo.clock time))
  rw [hdue]
  exact ⟨hclock, htimed⟩

/-- As long as nothing is left undone while time passes, a session keeps time. -/
theorem Run.timed (run : Run True settings id story solo) : Timed settings story solo := by
  induction run with
  | launched clock ignoreLooping start script lines =>
    obtain ⟨pendingSeek, epoch, hprepare⟩ := start.prepare_eq script lines
    intro head hhead
    cases hhead
    refine ⟨Nat.le_refl _, ?_, fun hsteady => (by cases hsteady), rfl, rfl⟩
    rw [hprepare]
    rfl
  | @step story beats solo solo' run hstep h =>
    cases hstep with
    | idle => exact h
    | paused hactive hpause =>
      obtain ⟨-, rfl⟩ := Session.eq_of_pause? hpause
      intro head hhead
      obtain ⟨hle, htimed⟩ := h head hhead
      have hkeeps := htimed.keeps.unsteady
      refine ⟨hle, htimed.ping, ?_, hkeeps.of_pendingSeek fun hnone => hnone⟩
      intro hsteady
      cases hsteady
    | resumed hactive hresume =>
      obtain ⟨-, rfl⟩ := Session.eq_of_resume? hresume
      intro head hhead
      obtain ⟨hle, htimed⟩ := h head hhead
      exact ⟨hle, htimed.ping, fun _ => by simp, htimed.keeps.of_pendingSeek fun hnone => hnone⟩
    | sought hactive hseek =>
      obtain ⟨target, -, -, rfl⟩ := Session.eq_of_seek? hseek
      intro head hhead
      obtain ⟨hle, htimed⟩ := h head hhead
      refine ⟨hle, htimed.ping, htimed.steady, htimed.keeps.of_pendingSeek ?_⟩
      intro hnone
      cases hnone
    | cancelled hactive =>
      obtain ⟨cancelled, hcancel, -⟩ := solo.session.cancel?_getD
      rw [hcancel]
      intro head hhead
      obtain ⟨hle, htimed⟩ := h head hhead
      exact ⟨hle, htimed.ping, fun _ => by simp, htimed.keeps.of_pendingSeek fun hnone => hnone⟩
    | played hplace hnow hsettings =>
      exact h.played run.ordered run.cancelled_iff hplace hnow hsettings
    | passed htime => exact h.passed (htime trivial)

end Solo

namespace Playhead

variable {h : Playhead} {v : Surroundings} {s : Session} {c : Command}

theorem events_of_executed (hprogress : Progress id h v s (h.step v s)) {i : Nat}
    {first rest : List Event}
    (hevents : (h.step v s).events id = first ++ .reached id (.executed i) :: rest) :
    h.stage = .turn ∧
      rest = (s.program.envelopesAt v.settings.host id i).map .sent ∧
      ∃ c, first = s.arrivals id c := by
  have hmem : Event.reached id (.executed i) ∈ (h.step v s).events id := by
    rw [hevents]
    simp
  generalize h.step v s = move at hprogress hevents hmem
  cases hprogress with
  | none hnext hstage hprogram hquiet => exact absurd (hquiet _ hmem) fun hexecuted => hexecuted
  | @executed head c hturn hnext hstage hprogram hcommand hevents' =>
    have hfirst : Event.reached id (.executed i) ∉ s.arrivals id c := fun hmem =>
      absurd (quiet_arrivals s id c _ hmem) fun hexecuted => hexecuted
    have hrest : Event.reached id (.executed i) ∉
        (c.envelopes v.settings.host id).map Event.sent := by
      intro hmem
      obtain ⟨envelope, -, hsent⟩ := List.mem_map.1 hmem
      cases hsent
    rw [hevents'] at hevents
    obtain ⟨hfirst', hindex, hrest'⟩ := (List.append_cons_inj_of_notMem hfirst hrest).1 hevents
    have hi : s.upcoming h = i := by
      cases hindex
      rfl
    rw [hi] at hcommand
    refine ⟨hturn, ?_, c, hfirst'.symm⟩
    rw [Program.envelopesAt, hcommand, ← hrest']
    simp
  | @ended first' hnext hprogram hquiet hevents' =>
    rw [hevents'] at hmem
    rcases List.mem_append.1 hmem with hfirst | hlast
    · exact absurd (hquiet _ hfirst) fun hexecuted => hexecuted
    · cases List.mem_singleton.1 hlast

end Playhead

end Story

/-! ## The runs of playback -/

namespace Playback

variable {settings : Settings} {id : SessionId} {later earlier : List Occurrence}
variable {p : Playback} {o : Occurrence}

/-- The account of a session in the middle of a step, when something was written already. -/
def accountAt (program : Program) (settings : Settings) (id : SessionId)
    (earlier : List Occurrence) (o : Occurrence) (first : List Event) : Account :=
  account program settings
    ((first.map (Beat.note o.before.clock o.before.policy.ignoreLooping)).reverse ++
      story id earlier)

/-- In a punctual run, a session that was not paused executes each command in the very millisecond in
which the waits before it are over, and sends what belongs to it at once. A wait is only ever added to
a budget that is used up but for less than a millisecond, so that no part of it is lost. -/
theorem Run.keeps_time (run : Run True settings (later ++ o :: earlier) p) {head : Playhead}
    (hact : o.act = .run (.play id head)) :
    ∃ s, o.before.session? id = some s ∧
      (head.stage = .turn →
        -1000000 < (head.land o.before.now s).budget ∧ (head.land o.before.now s).budget ≤ 0 ∧
          ∀ wait : Duration, ((head.land o.before.now s).charge wait).budget =
            (head.land o.before.now s).budget + wait.nanos) ∧
      o.after.journal = o.before.written o.events ∧
      ∀ first i rest, o.events = first ++ .reached id (.executed i) :: rest →
        rest = (s.program.envelopesAt settings.host id i).map .sent ∧
          ((accountAt s.program settings id earlier o first).steady = true →
            o.before.clock = (accountAt s.program settings id earlier o first).due) := by
  obtain ⟨hrun, hstep⟩ := run.cut
  have hevents := hstep.events
  have hjournal := hstep.journal
  rw [← hevents] at hjournal
  rw [hact] at hstep hevents
  obtain ⟨before, after, hready, -⟩ := hstep.eq_of_run
  rcases hrun.apart id with ⟨hlacks, -⟩ | ⟨solo, hshows, hsolo⟩
  · have hnone := hlacks.head?_eq_none hready
    rw [Task.head?_play_self] at hnone
    cases hnone
  · obtain ⟨hplace, -⟩ := hshows.place_of_ready hready
    have hhead : solo.place.head? = some head := by
      rw [hplace]
      rfl
    have hdue : solo.place.due solo.clock = o.before.clock := by
      rw [hplace, hshows.clock]
      rfl
    have htimed := (hsolo.timed head hhead).2
    rw [hdue] at htimed
    have hnow : o.before.surroundings.now = o.before.clock * 1000000 := rfl
    have hland (hturn : head.stage = .turn) := htimed.keeps.land hturn hnow
    have hprogress := head.step_progress id o.before.surroundings solo.session
      hsolo.cancelled_iff (hsolo.ordered.opening head hhead)
    rw [actEvents, taskEvents] at hevents
    simp only [hshows.session] at hevents
    refine ⟨solo.session, hshows.session, fun hturn => ?_, hjournal, fun first i rest hsplit => ?_⟩
    · obtain ⟨-, hsettled, -⟩ := hland hturn
      exact ⟨hsettled.1, hsettled.2, Playhead.charge_budget hsettled⟩
    · rw [hevents] at hsplit
      obtain ⟨hturn, hrest, c, hfirst⟩ := Playhead.events_of_executed hprogress hsplit
      have hsettings : o.before.surroundings.settings = settings := hrun.settings_eq
      rw [hsettings] at hrest
      refine ⟨hrest, fun hsteady => ?_⟩
      rw [accountAt, account_notes, hfirst, Account.foldl_arrivals] at hsteady ⊢
      obtain ⟨hcheck, hsettled, hagrees⟩ := hland hturn
      exact hsettled.clock_eq_due hagrees hcheck hsteady

/-- A wait that ends within a millisecond, and one that is shortened by what the first took too
long. -/
def shortWaits : List Occurrence × Playback :=
  let launched := ask (.launch (.inline "short" "One <wait.0.0015>\nTwo <wait.0.0005>\nThree")
    (.top none)) ([], start {})
  follow (fun _ => 5) 6 launched.1 launched.2

theorem run_shortWaits : Run True {} shortWaits.1 shortWaits.2 := by
  have hlaunch := Run.launched True {}
    (.inline "short" "One <wait.0.0015>\nTwo <wait.0.0005>\nThree") (.top none)
  exact hlaunch.follow (fun _ => 5) 6

theorem keeps_time_shortWaits :
    let head : Playhead := { stage := .turn, lastCheck := 2000000 }
    let o : Occurrence := ⟨shortWaits.2, .run (.play ⟨1⟩ head),
      { shortWaits.2 with ready := [] }.runTask (.play ⟨1⟩ head)⟩
    o.events = [.reached ⟨1⟩ (.executed 2), .sent ⟨"Three", .queue, some ⟨1⟩⟩] ∧
      ∃ s, shortWaits.2.session? ⟨1⟩ = some s ∧
        (accountAt s.program {} ⟨1⟩ shortWaits.1 o []).owed = 2000000 ∧
        shortWaits.2.clock = (accountAt s.program {} ⟨1⟩ shortWaits.1 o []).due := by
  intro head o
  have hready : shortWaits.2.ready = [.play ⟨1⟩ head] := by decide +kernel
  have hevents : o.events = [.reached ⟨1⟩ (.executed 2), .sent ⟨"Three", .queue, some ⟨1⟩⟩] := by
    decide +kernel
  have hsteady : (shortWaits.2.session? ⟨1⟩).map (fun s =>
      (accountAt s.program {} ⟨1⟩ shortWaits.1 o []).steady) = some true := by decide +kernel
  have howed : (shortWaits.2.session? ⟨1⟩).map (fun s =>
      (accountAt s.program {} ⟨1⟩ shortWaits.1 o []).owed) = some 2000000 := by decide +kernel
  have hstep : Step True o.before o.act o.after := @Step.run True shortWaits.2 [] [] _ hready
  obtain ⟨s, hs, -, -, htime⟩ :=
    @Run.keeps_time {} ⟨1⟩ [] shortWaits.1 _ o (run_shortWaits.step hstep) head rfl
  have hs' : shortWaits.2.session? ⟨1⟩ = some s := hs
  rw [hs', Option.map_some] at hsteady howed
  obtain ⟨-, hdue⟩ := htime [] 2 _ hevents
  exact ⟨hevents, s, hs', Option.some.inj howed, hdue (Option.some.inj hsteady)⟩

end Playback

end Choreo
