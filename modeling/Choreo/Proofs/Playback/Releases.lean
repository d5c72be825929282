import Choreo.Proofs.Playback.Flags

/-!
# No flag is left armed

If the owner of a flag ends first, a release is planned, which is worth something only as long as the
flag stays as it is. So whoever looks at an armed flag finds its owner playing, or one release that
will not fail.
-/

namespace Choreo

def Task.ticket? : Task → Option Ticket
  | .release ticket _ => some ticket
  | _ => none

namespace Playback

variable {punctual : Prop} {settings : Settings} {history later earlier : List Occurrence}
variable {p q : Playback} {act : Act} {id : SessionId} {s : Session} {o : Occurrence}
variable {flag : AutoFlag}

/-! ## Releases that are planned -/

def ticketsOf (sleepers : List Sleeper) : List Ticket := sleepers.filterMap (·.task.ticket?)

def releases (p : Playback) (ticket : Ticket) : Nat := (ticketsOf p.due).count ticket

theorem ticketsOf_append (first rest : List Sleeper) :
    ticketsOf (first ++ rest) = ticketsOf first ++ ticketsOf rest := by
  simp [ticketsOf]

theorem releases_step (hstep : Step punctual p act q) (ticket : Ticket) :
    (ticketsOf (p.actDone act)).count ticket + q.releases ticket =
      p.releases ticket + (ticketsOf (p.actDue act)).count ticket := by
  have hperm := hstep.tasks_perm.filterMap Task.ticket?
  rw [List.filterMap_map, List.filterMap_map] at hperm
  have hcount : (ticketsOf (p.actDone act ++ q.due)).count ticket =
      (ticketsOf (p.due ++ p.actDue act)).count ticket := hperm.count_eq ticket
  rwa [ticketsOf_append, ticketsOf_append, List.count_append, List.count_append] at hcount

theorem ticketsOf_timers (sleepers : List Sleeper) :
    ticketsOf (timers sleepers) = ticketsOf sleepers := by
  rw [ticketsOf, ticketsOf, timers, List.filterMap_filter]
  apply List.filterMap_congr
  intro sleeper _
  cases sleeper.task <;> rfl

theorem ticketsOf_actDue_of_not_play (hplay : ∀ id head, act ≠ .run (.play id head)) :
    ticketsOf (p.actDue act) = [] := by
  rw [← ticketsOf_timers, timers_actDue_of_not_play hplay]
  rfl

/-- A playhead plans releases only when it ends, and only of the flags that its session owns. -/
theorem ticketsOf_actDue_play {head : Playhead} (hs : p.session? id = some s) :
    ticketsOf (p.actDue (.run (.play id head))) =
      if (head.step p.surroundings s).next = .ended then
        [.busy, .mare].filterMap ((p.taskPolicy (.play id head)).ticket? · id)
      else [] := by
  have hcountdowns (effects : List Effect) (epoch : Nat) : ticketsOf
      (effects.filterMap (Effect.sleeper? p.clock p.settings.host id epoch)) = [] := by
    rw [ticketsOf, List.filterMap_eq_nil_iff]
    intro sleeper hsleeper
    obtain ⟨_, _, rfl⟩ := Effect.eq_countdown_of_mem hsleeper
    rfl
  rw [← ticketsOf_timers, timers_actDue_play hs, ticketsOf_append, hcountdowns, List.nil_append]
  split
  · simp only [release?, List.filterMap_cons, List.filterMap_nil]
    cases (p.taskPolicy (.play id head)).ticket? .busy id <;>
      cases (p.taskPolicy (.play id head)).ticket? .mare id <;> rfl
  · rfl

theorem count_tickets (policy : Policy) (id : SessionId) (flag : AutoFlag) (generation : Nat) :
    ([.busy, .mare].filterMap (policy.ticket? · id)).count ⟨flag, generation⟩ =
      if policy.ticket? flag id = some ⟨flag, generation⟩ then 1 else 0 := by
  have hticket (f : AutoFlag) : policy.ticket? f id =
      if (policy.flag f).armed = true ∧ (policy.flag f).owner = some id then
        some ⟨f, (policy.flag f).generation⟩ else none := rfl
  simp only [hticket, List.filterMap_cons, List.filterMap_nil]
  by_cases hbusy : (policy.flag .busy).armed = true ∧ (policy.flag .busy).owner = some id
  · by_cases hmare : (policy.flag .mare).armed = true ∧ (policy.flag .mare).owner = some id
    · cases flag <;> simp [hbusy, hmare, List.count_cons]
    · cases flag <;> simp [hbusy, hmare, List.count_cons]
  · by_cases hmare : (policy.flag .mare).armed = true ∧ (policy.flag .mare).owner = some id
    · cases flag <;> simp [hbusy, hmare, List.count_cons]
    · cases flag <;> simp [hbusy, hmare]

theorem count_actDue_play {head : Playhead} (hstep : Step punctual p (.run (.play id head)) q)
    (hs : p.session? id = some s) (ticket : Ticket) :
    (ticketsOf (p.actDue (.run (.play id head)))).count ticket =
      if (head.step p.surroundings s).next = .ended ∧
          q.policy.ticket? ticket.flag id = some ticket then 1 else 0 := by
  have hpolicy : p.taskPolicy (.play id head) = q.policy := hstep.policy.symm
  rw [ticketsOf_actDue_play hs, hpolicy]
  by_cases hended : (head.step p.surroundings s).next = .ended
  · rw [if_pos hended, count_tickets]
    simp only [hended, true_and]
  · rw [if_neg hended, if_neg fun hboth => hended hboth.1, List.count_nil]

/-! ## Whoever looks at an armed flag -/

/-- An armed flag belongs to a session that plays, or one release will come for it. -/
def Tended (p : Playback) (flag : AutoFlag) : Prop :=
  ∃ id s, (p.policy.flag flag).owner = some id ∧ p.session? id = some s ∧
    (p.places id ≠ [] ∧ p.releases ⟨flag, (p.policy.flag flag).generation⟩ = 0 ∨
      p.places id = [] ∧ p.releases ⟨flag, (p.policy.flag flag).generation⟩ = 1)

theorem Shows.places_eq_nil_iff {solo : Solo} (h : p.Shows id solo) :
    p.places id = [] ↔ solo.place.head? = none := by
  rw [h.places]
  cases solo.place <;> simp [Place.toList, Place.head?]

theorem Shows.stays {solo : Solo} (h : p.Shows id solo) (hstep : Step punctual p act q)
    (hother : ∀ head, act ≠ .run (.play id head)) :
    ∃ s, q.session? id = some s ∧ (q.places id = [] ↔ p.places id = []) := by
  obtain ⟨solo', hseen, hshows⟩ := h.sees hstep
  refine ⟨solo'.session, hshows.session, ?_⟩
  rw [hshows.places_eq_nil_iff, h.places_eq_nil_iff]
  cases hseen with
  | beside => exact .rfl
  | asked hasked => cases hasked <;> exact .rfl
  | played hact => exact absurd hact (hother _)
  | passed =>
    rw [solo.place.head?_wakeAt]

/-- No release is planned for a generation that is still to come. -/
def Current (p : Playback) : Prop :=
  ∀ ticket, p.releases ticket ≠ 0 → ticket.generation ≤ (p.policy.flag ticket.flag).generation

theorem current_step (hcurrent : p.Current) (run : Run punctual settings history p)
    (hstep : Step punctual p act q)
    (hgrows : ∀ flag, (p.policy.flag flag).generation ≤ (q.policy.flag flag).generation) :
    q.Current := by
  intro ticket hticket
  have hcount := releases_step hstep ticket
  by_cases hold : p.releases ticket = 0
  · have hnew : ticket ∈ ticketsOf (p.actDue act) := by
      rw [← List.count_pos_iff]
      omega
    by_cases hplay : ∃ id head, act = .run (.play id head)
    · obtain ⟨id, head, rfl⟩ := hplay
      obtain ⟨solo, hshows, -, -⟩ := run.apart_of_play hstep
      rw [← List.count_pos_iff, count_actDue_play hstep hshows.session] at hnew
      have hplanned : q.policy.ticket? ticket.flag id = some ticket := by
        by_contra hnone
        rw [if_neg fun hboth => hnone hboth.2] at hnew
        cases hnew
      have hticket : ⟨ticket.flag, (q.policy.flag ticket.flag).generation⟩ = ticket :=
        (Policy.ticket?_eq_some_iff.1 hplanned).2.2.symm
      exact Nat.le_of_eq (congrArg Ticket.generation hticket).symm
    · rw [ticketsOf_actDue_of_not_play fun id head hact => hplay ⟨id, head, hact⟩] at hnew
      cases hnew
  · exact Nat.le_trans (hcurrent ticket hold) (hgrows ticket.flag)

theorem count_actDone_of_kept (hstep : Step punctual p act q)
    (hkeeps : Occurrence.Keeps flag ⟨p, act, q⟩) (harmed : (p.policy.flag flag).armed = true) :
    (ticketsOf (p.actDone act)).count ⟨flag, (p.policy.flag flag).generation⟩ = 0 := by
  rw [List.count_eq_zero]
  intro hdone
  obtain ⟨sleeper, hsleeper, hticket⟩ := List.mem_filterMap.1 hdone
  cases act with
  | serve request granted => cases hsleeper
  | pass time => cases hsleeper
  | run task =>
    cases List.mem_singleton.1 hsleeper
    cases task with
    | release ticket command =>
      cases hticket
      have hhonours : p.policy.honours ⟨flag, (p.policy.flag flag).generation⟩ = true := by
        simp [Policy.honours, harmed]
      refine (hkeeps.clears harmed).2 ⟨_, command, rfl, ?_⟩
      rw [hstep.events_release, if_pos hhonours]
      exact List.mem_singleton_self _
    | _ => cases hticket

theorem tended_of_kept (htended : p.Tended flag) (run : Run punctual settings history p)
    (hstep : Step punctual p act q) (hkeeps : Occurrence.Keeps flag ⟨p, act, q⟩)
    (harmed : (p.policy.flag flag).armed = true) : q.Tended flag := by
  obtain ⟨id, s, howner, hs, hplace⟩ := htended
  have hflag : q.policy.flag flag = p.policy.flag flag := hkeeps.after
  obtain ⟨solo, hshows, rfl, hsolo⟩ := run.apart_of_session? hs
  have hcount := releases_step hstep ⟨flag, (p.policy.flag flag).generation⟩
  by_cases hplay : ∃ head, act = .run (.play id head)
  · obtain ⟨head, rfl⟩ := hplay
    obtain ⟨before, after, hready, rfl⟩ := hstep.eq_of_run
    have hafter := hshows.run_play hready
    have hpresent : p.places id ≠ [] := by
      rw [Ne, hshows.places_eq_nil_iff, (hshows.place_of_ready hready).1]
      simp [Place.head?]
    have hnone : p.releases ⟨flag, (p.policy.flag flag).generation⟩ = 0 := by
      rcases hplace with ⟨-, hnone⟩ | ⟨hgone, -⟩
      · exact hnone
      · exact absurd hgone hpresent
    have hdone : (ticketsOf (p.actDone (.run (.play id head)))).count
        ⟨flag, (p.policy.flag flag).generation⟩ = 0 := rfl
    rw [hdone, hnone, Nat.zero_add, Nat.zero_add, count_actDue_play hstep hs] at hcount
    refine ⟨id, _, by rw [hflag, howner], hafter.session, ?_⟩
    have hticket : ({ p with ready := before ++ after }.runTask (.play id head)).policy.ticket?
        flag id = some ⟨flag, (p.policy.flag flag).generation⟩ := by
      rw [Policy.ticket?_eq_some_iff, hflag]
      exact ⟨harmed, howner, rfl⟩
    have hplace := (head.step p.surroundings solo.session).next.head?_place solo.clock
    rw [hflag, hcount, Ne, hafter.places_eq_nil_iff]
    simp only [hticket, and_true, Solo.after, hplace]
    cases (head.step p.surroundings solo.session).next with
    | ended => exact .inr ⟨rfl, if_pos rfl⟩
    | _ => exact .inl ⟨by simp [Next.head?], if_neg (by simp)⟩
  · obtain ⟨s', hs', hplaces⟩ := hshows.stays hstep fun head hact => hplay ⟨head, hact⟩
    have hdone := count_actDone_of_kept hstep hkeeps harmed
    have hdue : (ticketsOf (p.actDue act)).count ⟨flag, (p.policy.flag flag).generation⟩ = 0 := by
      by_cases hact : ∃ i head, act = .run (.play i head)
      · obtain ⟨i, head, rfl⟩ := hact
        obtain ⟨solo', hshows', -, -⟩ := run.apart_of_play hstep
        rw [count_actDue_play hstep hshows'.session, if_neg]
        rintro ⟨-, hticket⟩
        obtain ⟨-, hown, -⟩ := Policy.ticket?_eq_some_iff.1 hticket
        rw [hflag, howner] at hown
        cases hown
        exact hplay ⟨head, rfl⟩
      · rw [ticketsOf_actDue_of_not_play fun i head hrun => hact ⟨i, head, hrun⟩]
        rfl
    rw [hdone, hdue, Nat.zero_add, Nat.add_zero] at hcount
    refine ⟨id, s', by rw [hflag, howner], hs', ?_⟩
    rw [hflag, hcount, Ne, hplaces]
    exact hplace

theorem tended_of_armed (run : Run punctual settings history p) (hstep : Step punctual p act q)
    (hcurrent : p.Current) {head : Playhead} (hact : act = .run (.play id head))
    (hs : p.session? id = some s) (hnext : (head.step p.surroundings s).next ≠ .ended)
    (hafter : q.policy.flag flag = (p.policy.flag flag).arm id) : q.Tended flag := by
  subst hact
  obtain ⟨solo, hshows, rfl, -⟩ := run.apart_of_session? hs
  obtain ⟨before, after, hready, rfl⟩ := hstep.eq_of_run
  have hplayed := hshows.run_play hready
  have hplace := (head.step p.surroundings solo.session).next.head?_place solo.clock
  have hcount := releases_step hstep ⟨flag, (p.policy.flag flag).generation + 1⟩
  have hold : p.releases ⟨flag, (p.policy.flag flag).generation + 1⟩ = 0 := by
    by_contra hplanned
    have hle := hcurrent _ hplanned
    simp only at hle
    omega
  have hdone : (ticketsOf (p.actDone (.run (.play id head)))).count
      ⟨flag, (p.policy.flag flag).generation + 1⟩ = 0 := rfl
  rw [hold, hdone, count_actDue_play hstep hs, if_neg fun hboth => hnext hboth.1] at hcount
  refine ⟨id, _, by rw [hafter]; rfl, hplayed.session, .inl ⟨?_, ?_⟩⟩
  · rw [Ne, hplayed.places_eq_nil_iff]
    simp only [Solo.after, hplace]
    intro hgone
    cases hmove : (head.step p.surroundings solo.session).next with
    | ended => exact hnext hmove
    | again head' | yield head' | sleep time head' =>
      rw [hmove] at hgone
      cases hgone
  · rw [hafter]
    show releases _ ⟨flag, (p.policy.flag flag).generation + 1⟩ = 0
    omega

theorem Run.tended (run : Run punctual settings history p) (hhost : ArmedByScripts history) :
    p.Current ∧ ∀ flag, (p.policy.flag flag).armed = true → p.Tended flag := by
  induction run with
  | start =>
    refine ⟨fun ticket hticket => absurd rfl hticket, fun flag harmed => ?_⟩
    cases flag <;> cases harmed
  | @step history p q act run hstep ih =>
    obtain ⟨hcurrent, htended⟩ := ih fun o ho => hhost o (List.mem_cons_of_mem _ ho)
    have hown := hhost _ List.mem_cons_self
    have hgrows (flag : AutoFlag) : (p.policy.flag flag).generation ≤ (q.policy.flag flag).generation :=
      (run.turns hstep (armedFor?_eq_none hown flag)).generation.1
    refine ⟨current_step hcurrent run hstep hgrows, fun flag harmed => ?_⟩
    cases run.turns hstep (armedFor?_eq_none hown flag) with
    | kept harms hclears hafter =>
      have hflag : q.policy.flag flag = p.policy.flag flag := hafter
      rw [hflag] at harmed
      exact tended_of_kept (htended flag harmed) run hstep ⟨hafter, harms, hclears⟩ harmed
    | armed harms hact hs hnext hafter => exact tended_of_armed run hstep hcurrent hact hs hnext hafter
    | cleared harms hby hbefore hafter =>
      have hflag : q.policy.flag flag = (p.policy.flag flag).disarm := hafter
      have hbefore' : (p.policy.flag flag).armed = true := hbefore
      rw [hflag, FlagState.disarm, if_pos hbefore'] at harmed
      cases harmed

/-! ## Where a release comes from -/

theorem exists_ended_of_mem_actDue {sleeper : Sleeper} {ticket : Ticket} {command : String}
    (hmem : sleeper ∈ p.actDue act) (htask : sleeper.task = .release ticket command) :
    ∃ id head s, act = .run (.play id head) ∧ p.session? id = some s ∧
      (head.step p.surroundings s).next = .ended ∧
      sleeper.wake = p.clock + (ticket.flag.grace p.settings).sleepMillis ∧
      command = ticket.flag.farewell p.settings ∧
      (p.actPolicy act).ticket? ticket.flag id = some ticket := by
  have htimer : sleeper ∈ timers (p.actDue act) := by
    refine List.mem_filter.2 ⟨hmem, ?_⟩
    rw [htask]
    rfl
  by_cases hplay : ∃ id head, act = .run (.play id head)
  · obtain ⟨id, head, rfl⟩ := hplay
    have hsome : ∃ s, p.session? id = some s := by
      cases hs : p.session? id with
      | none => simp [actDue, taskFront, taskBack, taskSleepers, hs] at hmem
      | some s => exact ⟨s, rfl⟩
    obtain ⟨s, hs⟩ := hsome
    rw [timers_actDue_play hs] at htimer
    rcases List.mem_append.1 htimer with hcountdown | hrelease
    · obtain ⟨_, _, rfl⟩ := Effect.eq_countdown_of_mem hcountdown
      cases htask
    · split at hrelease
      · next hended =>
        obtain ⟨flag, ticket', hticket, rfl⟩ := eq_release_of_mem hrelease
        cases htask
        have hown := (Policy.ticket?_eq_some_iff.1 hticket).2.2
        have hsame : ticket.flag = flag := by rw [hown]
        refine ⟨id, head, s, rfl, hs, hended, ?_, ?_, ?_⟩
        · rw [hsame]
        · rw [hsame]
        · rw [hsame]
          exact hticket
      · cases hrelease
  · rw [timers_actDue_of_not_play fun id head hact => hplay ⟨id, head, hact⟩] at htimer
    cases htimer

/-- Nothing is sent on behalf of no session, unless a flag is released. -/
theorem releases_of_sent (hstep : Step punctual o.before o.act o.after) {envelope : Envelope}
    (hsent : .sent envelope ∈ o.events) (horigin : envelope.origin = none) :
    ∃ ticket command, o.act = .run (.release ticket command) ∧
      envelope = ⟨command, .queue, none⟩ ∧ o.before.policy.honours ticket = true := by
  rw [hstep.events] at hsent
  cases hact : o.act with
  | serve request granted =>
    rw [hact] at hsent
    cases hsent
  | pass time =>
    rw [hact] at hsent
    cases hsent
  | run task =>
    rw [hact, actEvents] at hsent
    have htask := origin_of_mem_taskEvents hsent
    rw [horigin] at htask
    cases task with
    | release ticket command =>
      rw [taskEvents] at hsent
      split at hsent
      · next hhonours =>
        cases List.mem_singleton.1 hsent
        exact ⟨ticket, command, rfl, rfl, hhonours⟩
      · cases hsent
    | _ => cases htask

theorem ended_of_next {head : Playhead} (run : Run punctual settings history p)
    (hstep : Step punctual p (.run (.play id head)) q) (hs : p.session? id = some s)
    (hended : (head.step p.surroundings s).next = .ended) :
    .reached id .ended ∈ Occurrence.events ⟨p, .run (.play id head), q⟩ := by
  obtain ⟨solo, hshows, rfl, hsolo⟩ := run.apart_of_session? hs
  obtain ⟨before, after, hready, -⟩ := hstep.eq_of_run
  have hhead : solo.place.head? = some head := by
    rw [(hshows.place_of_ready hready).1]
    rfl
  rw [hstep.events_play hs]
  have hprogress := head.step_progress id p.surroundings solo.session hsolo.cancelled_iff
    (hsolo.ordered.opening head hhead)
  cases hprogress with
  | ended hnext hprogram hfirst hmove =>
    simp only [hmove]
    exact List.mem_append_right _ (List.mem_singleton_self _)
  | none hnext | executed _ hnext =>
    rw [hended] at hnext
    cases hnext

theorem Run.stays_unarmed (run : Run punctual settings (later ++ o :: earlier) p)
    (hhost : ∀ o' ∈ later, o'.armedFor? flag = none) (harms : ∀ o' ∈ later, ¬o'.Arms flag)
    (hafter : (o.after.policy.flag flag).armed = false) : (p.policy.flag flag).armed = false := by
  induction later generalizing p with
  | nil =>
    cases run with
    | step run hstep => exact hafter
  | cons o' later ih =>
    cases run with
    | @step _ before _ act run hstep =>
      have hbefore := ih run (fun o ho => hhost o (List.mem_cons_of_mem _ ho))
        fun o ho => harms o (List.mem_cons_of_mem _ ho)
      cases run.turns hstep (hhost _ List.mem_cons_self) with
      | kept hother hclears hkept =>
        have hsame : p.policy.flag flag = before.policy.flag flag := hkept
        rw [hsame, hbefore]
      | armed harms' => exact absurd harms' (harms _ List.mem_cons_self)
      | cleared hother hby harmed =>
        have harmed' : (before.policy.flag flag).armed = true := harmed
        rw [hbefore] at harmed'
        cases harmed'

theorem Run.exists_arms (run : Run punctual settings (later ++ o :: earlier) p)
    (hhost : ArmedByScripts later) (hafter : (o.after.policy.flag flag).armed = false)
    (harmed : (p.policy.flag flag).armed = true) : ∃ o' ∈ later, o'.Arms flag := by
  by_contra hnever
  have hunarmed := run.stays_unarmed (fun o' ho' => armedFor?_eq_none (hhost o' ho') flag)
    (fun o' ho' harms => hnever ⟨o', ho', harms⟩) hafter
  rw [harmed] at hunarmed
  cases hunarmed

theorem Occurrence.Releases.honours (h : o.Releases flag)
    (hstep : Step punctual o.before o.act o.after) :
    (o.before.policy.flag flag).armed = true ∧ (o.after.policy.flag flag).armed = false := by
  obtain ⟨generation, command, hact, hsent⟩ := h
  obtain ⟨ticket, command', hact', -, hhonours⟩ := releases_of_sent hstep hsent rfl
  cases hact.symm.trans hact'
  have harmed := (Policy.honours_iff.1 hhonours).1
  refine ⟨harmed, ?_⟩
  rw [hstep.policy, hact]
  have hafter := o.before.policy.flag_release ⟨flag, generation⟩ flag
  rw [if_pos ⟨hhonours, rfl⟩, FlagState.disarm, if_pos harmed] at hafter
  show ((o.before.policy.release ⟨flag, generation⟩).1.flag flag).armed = false
  rw [hafter]

/-- Whatever is sent on behalf of no session was planned by the owner of a flag as it ended, and the
flag was left alone since then. -/
theorem Run.exists_ended (run : Run punctual settings (later ++ o :: earlier) p)
    (hhost : ArmedByScripts earlier) {envelope : Envelope} (hsent : .sent envelope ∈ o.events)
    (horigin : envelope.origin = none) :
    ∃ flag id between o' before, earlier = between ++ o' :: before ∧
      envelope = ⟨flag.farewell settings, .queue, none⟩ ∧ o.Releases flag ∧
      .reached id .ended ∈ o'.events ∧ (o'.after.policy.flag flag).owner = some id ∧
      (∀ o'' ∈ between, ¬o''.Arms flag ∧ ¬o''.Clears ∧ ¬o''.Releases flag) ∧
      (punctual → o.before.clock = o'.before.clock + (flag.grace settings).sleepMillis) := by
  obtain ⟨hrun, hstep⟩ := run.cut
  obtain ⟨⟨flag, generation⟩, command, hact, rfl, hhonours⟩ := releases_of_sent hstep hsent horigin
  obtain ⟨harmed, hgeneration⟩ := Policy.honours_iff.1 hhonours
  simp only at harmed hgeneration
  have hready : .release ⟨flag, generation⟩ command ∈ o.before.ready := by
    rw [hact] at hstep
    obtain ⟨before, after, hready, -⟩ := hstep.eq_of_run
    rw [hready]
    simp
  obtain ⟨between, o', before, hsplit, sleeper, hplanned, htask, hwake⟩ :=
    hrun.exists_planned hready
  rw [hsplit] at hrun hhost
  obtain ⟨hrun', hstep'⟩ := hrun.cut
  obtain ⟨id, head, s, hact', hs, hended, hdue, hcommand, hticket⟩ :=
    exists_ended_of_mem_actDue hplanned htask
  rw [← hstep'.policy] at hticket
  obtain ⟨harmed', howner, hsame⟩ := Policy.ticket?_eq_some_iff.1 hticket
  have hsettings : o'.before.settings = settings := hrun'.settings_eq
  rw [hsettings] at hdue hcommand
  -- The ticket is honoured, so the flag is in the generation that it was in when this was planned.
  have hbetween : ArmedByScripts between := fun o ho => hhost o (List.mem_append_left _ ho)
  have hstill : (o.before.policy.flag flag).generation = (o'.after.policy.flag flag).generation := by
    rw [hgeneration]
    exact congrArg Ticket.generation hsame
  obtain ⟨-, hkept⟩ := (hrun.generation hbetween flag).2 hstill
  refine ⟨flag, id, between, o', before, hsplit, by rw [hcommand], ⟨generation, command, hact, hsent⟩,
    ?_, howner, fun o'' ho'' => ?_, fun hpunctual => ?_⟩
  · have hevent := @ended_of_next punctual settings before o'.before o'.after id s head hrun'
      (by rw [← hact']; exact hstep') hs hended
    have hocc : o' = ⟨o'.before, .run (.play id head), o'.after⟩ := by
      rw [← hact']
    rw [hocc]
    exact hevent
  · obtain ⟨hflag, hkeeps⟩ := hkept o'' ho''
    rw [← hflag] at harmed'
    obtain ⟨hclears, hreleases⟩ := hkeeps.clears harmed'
    exact ⟨hkeeps.arms, hclears, hreleases⟩
  · rw [← hwake hpunctual, hdue]

/-- A punctual release comes as many milliseconds after the end of the owner as the settings say. -/
theorem Run.released_after_grace (run : Run True settings (later ++ o :: earlier) p)
    (hhost : ArmedByScripts earlier)
    (hfits : ∀ flag : AutoFlag, flag.graceMillis settings < UInt64.size)
    {envelope : Envelope} (hsent : .sent envelope ∈ o.events) (horigin : envelope.origin = none) :
    ∃ flag id, ∃ o' ∈ earlier, envelope = ⟨flag.farewell settings, .queue, none⟩ ∧
      .reached id .ended ∈ o'.events ∧ (o'.after.policy.flag flag).owner = some id ∧
      o.before.clock = o'.before.clock + flag.graceMillis settings := by
  obtain ⟨flag, id, between, o', before, hsplit, henvelope, -, hended, howner, -, hdue⟩ :=
    run.exists_ended hhost hsent horigin
  have hmem : o' ∈ earlier := by
    rw [hsplit]
    exact List.mem_append_right _ List.mem_cons_self
  have hclock := hdue trivial
  rw [AutoFlag.sleepMillis_grace (hfits flag)] at hclock
  exact ⟨flag, id, o', hmem, henvelope, hended, howner, hclock⟩

/-- An armed flag belongs to a session that plays, or exactly one release will come for it. What is
sent on behalf of no session is sent in such a release, which was planned as the owner of the flag
ended, and nothing happened to the flag in between. So no flag is armed once all is over, and none is
released twice unless it was armed again. -/
theorem Run.no_flag_is_orphaned (run : Run punctual settings history p)
    (hhost : ArmedByScripts history) :
    (∀ flag, (p.policy.flag flag).armed = true →
        ∃ id s, (p.policy.flag flag).owner = some id ∧ p.session? id = some s ∧
          (p.places id ≠ [] ∨
            p.places id = [] ∧ p.releases ⟨flag, (p.policy.flag flag).generation⟩ = 1)) ∧
      (∀ later o earlier, history = later ++ o :: earlier → ∀ envelope, .sent envelope ∈ o.events →
        envelope.origin = none →
        ∃ flag id between o' before, earlier = between ++ o' :: before ∧
          envelope = ⟨flag.farewell settings, .queue, none⟩ ∧ o.Releases flag ∧
          .reached id .ended ∈ o'.events ∧ (o'.after.policy.flag flag).owner = some id ∧
          (∀ o'' ∈ between, ¬o''.Arms flag ∧ ¬o''.Clears ∧ ¬o''.Releases flag) ∧
          (punctual → o.before.clock = o'.before.clock + (flag.grace settings).sleepMillis ∧
            ((flag.grace settings).seconds < farthestSecond →
              o.before.clock = o'.before.clock + (flag.grace settings).ceilMillis))) ∧
      ((∀ id, p.places id = []) → (∀ ticket, p.releases ticket = 0) →
        ∀ flag, (p.policy.flag flag).armed = false) ∧
      ∀ flag later o between o' earlier, history = later ++ o :: (between ++ o' :: earlier) →
        o.Releases flag → o'.Releases flag → ∃ o'' ∈ between, o''.Arms flag := by
  obtain ⟨-, htended⟩ := run.tended hhost
  refine ⟨fun flag harmed => ?_, ?_, fun hgone hnone flag => ?_, ?_⟩
  · obtain ⟨id, s, howner, hs, ⟨hplaying, -⟩ | hplanned⟩ := htended flag harmed
    · exact ⟨id, s, howner, hs, .inl hplaying⟩
    · exact ⟨id, s, howner, hs, .inr hplanned⟩
  · intro later o earlier hsplit envelope hsent horigin
    have hall : ArmedByScripts earlier := by
      intro o' ho'
      apply hhost
      rw [hsplit]
      simp [ho']
    rw [hsplit] at run
    obtain ⟨flag, id, between, o', before, hbetween, henvelope, hreleases, hended, howner, hquiet, hdue⟩ :=
      run.exists_ended hall hsent horigin
    refine ⟨flag, id, between, o', before, hbetween, henvelope, hreleases, hended, howner, hquiet,
      fun hpunctual => ⟨hdue hpunctual, fun hnear => ?_⟩⟩
    rw [hdue hpunctual, Duration.sleepMillis, if_pos hnear]
  · cases harmed : (p.policy.flag flag).armed with
    | false => rfl
    | true =>
      obtain ⟨id, s, -, -, ⟨hplaying, -⟩ | ⟨-, hplanned⟩⟩ := htended flag harmed
      · exact absurd (hgone id) hplaying
      · rw [hnone] at hplanned
        cases hplanned
  · intro flag later o between o' earlier hsplit hreleases hreleases'
    have hall : ArmedByScripts between := by
      intro o'' ho''
      apply hhost
      rw [hsplit]
      simp [ho'']
    rw [hsplit] at run
    obtain ⟨hrun, hstep⟩ := run.cut
    obtain ⟨-, hstep'⟩ := hrun.cut
    exact hrun.exists_arms hall (hreleases'.honours hstep').2 (hreleases.honours hstep).1

/-- A session takes the flag over from another one that ends before it. -/
def takenOver : List Occurrence × Playback :=
  let first := ask (.launch (.inline "first" "/autobusy\nOne") (.top none)) ([], start {})
  let second := ask (.launch (.inline "second" "/autobusy\nTwo <wait.1>") (.top none)) first
  follow (fun _ => 3500) 73 second.1 second.2

theorem run_takenOver : Run True {} takenOver.1 takenOver.2 := by
  have hfirst := Run.launched True {} (.inline "first" "/autobusy\nOne") (.top none)
  have hsecond := hfirst.ask (.launch (.inline "second" "/autobusy\nTwo <wait.1>") (.top none))
  exact hsecond.follow (fun _ => 3500) 73

theorem no_flag_is_orphaned_takenOver :
    let o : Occurrence := ⟨takenOver.2, .run (.release ⟨.busy, 2⟩ "/busy off"),
      { takenOver.2 with ready := [] }.runTask (.release ⟨.busy, 2⟩ "/busy off")⟩
    ArmedByScripts (o :: takenOver.1) ∧ .sent ⟨"/busy off", .queue, none⟩ ∈ o.events ∧
      (∃ id, ∃ o' ∈ takenOver.1, .reached id .ended ∈ o'.events ∧
        (o'.after.policy.flag .busy).owner = some id ∧ 3500 = o'.before.clock + 2500) ∧
      ∀ flag, (o.after.policy.flag flag).armed = false := by
  intro o
  have hready : takenOver.2.ready = [.release ⟨.busy, 2⟩ "/busy off"] := by decide +kernel
  have hhost : ArmedByScripts (o :: takenOver.1) := by decide +kernel
  have hsent : .sent ⟨"/busy off", .queue, none⟩ ∈ o.events := by decide +kernel
  have hclock : o.before.clock = 3500 := by decide +kernel
  have hstep : Step True o.before o.act o.after := @Step.run True takenOver.2 [] [] _ hready
  obtain ⟨-, hreleased, hover, -⟩ :=
    @Run.no_flag_is_orphaned True {} (o :: takenOver.1) o.after (run_takenOver.step hstep) hhost
  obtain ⟨flag, id, between, o', before, hsplit, henvelope, -, hended, howner, -, hdue⟩ :=
    hreleased [] o takenOver.1 rfl _ hsent rfl
  have hbusy : flag = .busy := by
    cases flag with
    | busy => rfl
    | mare => exact absurd henvelope (by decide)
  have hquiet : o.after.ready = [] ∧ o.after.sleepers = [] := by decide +kernel
  refine ⟨hhost, hsent, ⟨id, o', ?_, hended, ?_, ?_⟩, hover (fun i => ?_) fun ticket => ?_⟩
  · rw [hsplit]
    simp
  · rw [← hbusy]
    exact howner
  · have hgrace : ((AutoFlag.busy).grace {}).sleepMillis = 2500 := by decide +kernel
    rw [← hclock, (hdue trivial).1, hbusy, hgrace]
  · simp [places, hquiet]
  · simp [releases, due, hquiet, ticketsOf]

end Playback

end Choreo
