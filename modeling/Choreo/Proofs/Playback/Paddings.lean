import Choreo.Proofs.Playback.Signals

/-!
# Paddings

A padding goes on beside the playhead that began it, one repeat after another. Each repeat looks at its
session when its time has come: pauses, seeks and loops are nothing to it, but it gives up once the
session was cancelled, and also once nobody knows of the session any more, which comes with the end of
a session that no one holds.
-/

namespace Choreo

/-- The repeats of a padding from a millisecond on, ten milliseconds apart. -/
def Padding.repeats (padding : Padding) (id : SessionId) (clock : Nat) : List (Nat × Envelope) :=
  (List.range padding.count).map fun k => (clock + 10 * k, ⟨padding.payload, .noQueue, some id⟩)

theorem Padding.repeats_succ (n : Nat) (payload : String) (id : SessionId) (clock : Nat) :
    Padding.repeats ⟨n + 1, payload⟩ id clock =
      (clock, ⟨payload, .noQueue, some id⟩) :: Padding.repeats ⟨n, payload⟩ id (clock + 10) := by
  simp only [Padding.repeats, List.range_succ_eq_map, List.map_cons, List.map_map, Nat.mul_zero,
    Nat.add_zero, List.cons.injEq, true_and]
  apply List.map_congr_left
  intro k _
  simp only [Function.comp_apply, Prod.mk.injEq, and_true]
  omega

theorem sleepMillis_spacing : Padding.spacing.sleepMillis = 10 := by decide +kernel

def Directive.repeats (d : Directive) (id : SessionId) (clock : Nat) : List (Nat × Envelope) :=
  match d with
  | .pad padding => padding.repeats id clock
  | _ => []

def Sleeper.repeats (sleeper : Sleeper) : List (Nat × Envelope) :=
  match sleeper.task with
  | .pad id payload left => Padding.repeats ⟨left, payload⟩ id sleeper.wake
  | _ => []

/-! ## The tasks of a playhead -/

namespace Session

variable {s : Session} {c : Command} {id : SessionId}

theorem tasks_arrive (s : Session) (i : Nat) (c : Command) (now : Instant) (id : SessionId) :
    (s.arrive i c now).2.filterMap (Effect.task? id) = [] := by
  by_cases hregion : s.region = some c.region
  · simp [arrive, enter, hregion]
  · obtain ⟨t, -, -, harrive⟩ := exists_countdownAtEntry hregion i now
    rw [harrive]
    unfold countdownAtEntry
    cases t.countdown with
    | none => rfl
    | some mode =>
      cases mode with
      | off => rfl
      | _ =>
        simp only
        split
        · rfl
        · split
          · split <;> rfl
          · rfl

theorem repeats_perform (s : Session) (settings : Settings) (c : Command) (id : SessionId)
    (clock : Nat) :
    ((s.perform settings c).2.filterMap (Effect.task? id)).flatMap
        (fun task => Sleeper.repeats ⟨clock, task⟩) = c.directive.repeats id clock := by
  have hsends (commands : List String) (mode : DispatchMode) :
      (commands.map (Effect.send · mode)).filterMap (Effect.task? id) = [] := by
    have hnone : Effect.task? id ∘ (Effect.send · mode) = fun _ => none := rfl
    rw [List.filterMap_map, hnone, List.filterMap_none]
  unfold perform
  cases hdirective : c.directive with
  | animationCancel =>
    simp only [List.filterMap_append, hsends]
    rfl
  | busy decorated =>
    simp only [List.filterMap_cons, Effect.task?, hsends]
    rfl
  | pad padding => exact List.append_nil _
  | _ => rfl

theorem repeats_execute (s : Session) (v : Surroundings) (i : Nat) (c : Command) (id : SessionId)
    (clock : Nat) :
    ((s.execute v i c).2.filterMap (Effect.task? id)).flatMap
        (fun task => Sleeper.repeats ⟨clock, task⟩) = c.directive.repeats id clock := by
  simp only [execute, List.filterMap_append, List.filterMap_cons, tasks_landing, tasks_arrive,
    Effect.task?, List.nil_append]
  exact repeats_perform _ v.settings c id clock

end Session

namespace Playback

variable {punctual : Prop} {settings : Settings} {history later earlier : List Occurrence}
variable {p q : Playback} {act : Act} {id : SessionId} {s : Session} {c : Command} {o : Occurrence}
variable {head : Playhead}

/-! ## What a step calls for, sends and gives up -/

/-- The repeats that the paddings call for which are executed in a step. -/
def Occurrence.called (o : Occurrence) : List (Nat × Envelope) :=
  o.executions.flatMap fun e => e.2.2.directive.repeats e.1 o.before.clock

def Occurrence.repeated (o : Occurrence) : List (Nat × Envelope) :=
  match o.act with
  | .run (.pad _ _ _) => o.events.filterMap fun event =>
      match event with
      | .sent envelope => some (o.before.clock, envelope)
      | .reached _ _ => none
  | _ => []

def Act.padder? : Act → Option SessionId
  | .run (.pad id _ _) => some id
  | _ => none

/-- The repeats that a padding gives up in a step. -/
def Occurrence.forgone (o : Occurrence) : List (Nat × Envelope) :=
  match o.act with
  | .run (.pad id payload left) =>
    if o.events = [] then Padding.repeats ⟨left, payload⟩ id o.before.clock else []
  | _ => []

theorem executions_eq_nil (hstep : Step punctual p act q)
    (hplay : ∀ id head, act ≠ .run (.play id head)) : Occurrence.executions ⟨p, act, q⟩ = [] := by
  rw [List.eq_nil_iff_forall_not_mem]
  rintro ⟨id, s, c⟩ hmem
  exact not_executes hstep hplay id s c (mem_executions_iff.1 hmem)

theorem executions_of_events {i : Nat} {first : List Event} {envelopes : List Envelope}
    (hevents : o.events = first ++ .reached id (.executed i) :: envelopes.map .sent)
    (hfirst : ∀ event ∈ first, event.Quiet) (hs : o.before.session? id = some s)
    (hcommand : s.program.commands[i]? = some c) : o.executions = [(id, s, c)] := by
  rw [Occurrence.executions, hevents, List.filterMap_append, List.filterMap_eq_nil_iff.2 ?_,
    List.nil_append, List.filterMap_cons]
  · simp [hs, hcommand, List.filterMap_map]
  · intro event hevent
    split
    · next id' i' => exact absurd (hfirst _ hevent) fun hquiet => hquiet
    · rfl

theorem repeats_actDue_play (hs : p.session? id = some s) :
    (p.actDue (.run (.play id head))).flatMap Sleeper.repeats =
      ((head.step p.surroundings s).effects.filterMap (Effect.task? id)).flatMap
        fun task => Sleeper.repeats ⟨p.clock, task⟩ := by
  have hfront (next : Next) : ((next.front id).map (Sleeper.mk p.clock)).flatMap Sleeper.repeats = [] := by
    cases next <;> rfl
  have hback (next : Next) : ((next.back id).map (Sleeper.mk p.clock)).flatMap Sleeper.repeats = [] := by
    cases next <;> rfl
  have hnext (r : Playback) (next : Next) : (r.nextSleepers id next).flatMap Sleeper.repeats = [] := by
    rw [List.flatMap_eq_nil_iff]
    intro sleeper hsleeper
    cases next with
    | sleep time head' =>
      cases List.mem_singleton.1 hsleeper
      rfl
    | ended =>
      obtain ⟨_, _, -, rfl⟩ := eq_release_of_mem hsleeper
      rfl
    | again head' | yield head' => cases hsleeper
  have hcountdowns (effects : List Effect) (epoch : Nat) :
      (effects.filterMap (Effect.sleeper? p.clock p.settings.host id epoch)).flatMap
        Sleeper.repeats = [] := by
    rw [List.flatMap_eq_nil_iff]
    intro sleeper hsleeper
    obtain ⟨_, _, rfl⟩ := Effect.eq_countdown_of_mem hsleeper
    rfl
  simp only [actDue, taskFront, taskBack, taskSleepers, hs, List.map_append, List.flatMap_append,
    hfront, hback, hnext, hcountdowns, List.nil_append, List.append_nil, List.flatMap_map]

theorem repeats_eq_of_pad {payload : String} {left : Nat}
    (hevents : Occurrence.events ⟨p, .run (.pad id payload left), q⟩ =
      p.actEvents (.run (.pad id payload left))) :
    (p.actDone (.run (.pad id payload left))).flatMap Sleeper.repeats =
      Occurrence.repeated ⟨p, .run (.pad id payload left), q⟩ ++
        Occurrence.forgone ⟨p, .run (.pad id payload left), q⟩ ++
        (p.actDue (.run (.pad id payload left))).flatMap Sleeper.repeats := by
  have hdone : (p.actDone (.run (.pad id payload left))).flatMap Sleeper.repeats =
      Padding.repeats ⟨left, payload⟩ id p.clock := List.append_nil _
  rw [hdone]
  simp only [Occurrence.repeated, Occurrence.forgone, hevents, actEvents, taskEvents, actDue,
    taskFront, taskBack, taskSleepers]
  cases left with
  | zero => rfl
  | succ left =>
    cases hknown : p.known? id with
    | none => simp [hknown]
    | some s =>
      by_cases hcancelled : s.status = .cancelled
      · simp [hknown, hcancelled]
      · simp [hknown, hcancelled, Sleeper.repeats, Padding.repeats_succ, sleepMillis_spacing]

/-- What a step has done and what it calls for is sent, given up or planned. -/
theorem Step.repeats_eq (run : Run punctual settings history p) (hstep : Step punctual p act q) :
    (p.actDone act).flatMap Sleeper.repeats ++ Occurrence.called ⟨p, act, q⟩ =
      Occurrence.repeated ⟨p, act, q⟩ ++ Occurrence.forgone ⟨p, act, q⟩ ++
        (p.actDue act).flatMap Sleeper.repeats := by
  have hcalled (hplay : ∀ id head, act ≠ .run (.play id head)) :
      Occurrence.called ⟨p, act, q⟩ = [] := by
    rw [Occurrence.called, executions_eq_nil hstep hplay]
    rfl
  cases act with
  | pass time =>
    rw [hcalled (by simp)]
    rfl
  | serve request granted =>
    rw [hcalled (by simp)]
    cases request with
    | launch script start => cases granted <;> rfl
    | _ => rfl
  | run task =>
    cases task with
    | countdown i epoch command | release ticket command =>
      rw [hcalled (by simp)]
      rfl
    | pad i payload left =>
      rw [hcalled (by simp), List.append_nil]
      exact repeats_eq_of_pad (Step.events (o := ⟨p, .run (.pad i payload left), q⟩) hstep)
    | play i head =>
      obtain ⟨solo, hshows, -, hsolo⟩ := run.apart_of_play hstep
      have hevents := hstep.events_play hshows.session
      rw [repeats_actDue_play hshows.session]
      show Occurrence.called _ = _
      cases head.step_plans p.surroundings solo.session hsolo.cancelled_iff i with
      | none hnone hsleepers htasks =>
        have hexecutions : Occurrence.executions ⟨p, .run (.play i head), q⟩ = [] := by
          rw [List.eq_nil_iff_forall_not_mem]
          rintro ⟨id, s, c⟩ hmem
          obtain ⟨-, j, hexecuted, -⟩ := mem_executions_iff.1 hmem
          rw [hevents] at hexecuted
          rcases hnone _ hexecuted with heq | heq | ⟨_, heq⟩ <;> cases heq
        rw [Occurrence.called, hexecutions, htasks]
        rfl
      | @executed j c hcommand hwritten hcountdown hsleepers htasks =>
        rw [hwritten] at hevents
        have hexecutions := executions_of_events (o := ⟨p, .run (.play i head), q⟩) hevents
          (Playhead.quiet_arrivals solo.session i c) hshows.session hcommand
        rw [Occurrence.called, hexecutions, htasks, Session.repeats_execute]
        exact List.append_nil _

/-! ## The account of all repeats -/

/-- In a punctual run, each repeat that was called for was sent in its millisecond, was given up, or is
still to be sent. -/
theorem Run.repeats_perm (run : Run True settings history p) :
    (history.flatMap Occurrence.repeated ++ history.flatMap Occurrence.forgone ++
        p.due.flatMap Sleeper.repeats).Perm (history.flatMap Occurrence.called) := by
  induction run with
  | start => exact .refl _
  | @step history p q act run hstep ih =>
    have hdue := (hstep.due_perm run.prompt).flatMap_right Sleeper.repeats
    have hone := Step.repeats_eq run hstep
    rw [List.flatMap_append, List.flatMap_append] at hdue
    rw [List.perm_iff_count] at ih hdue ⊢
    intro r
    have hall := ih r
    have hlast := hdue r
    have hboth := congrArg (List.count r) hone
    simp only [List.flatMap_cons, List.count_append] at hall hlast hboth ⊢
    omega

theorem exists_padder_of_forgone (hstep : Step punctual o.before o.act o.after) {r : Nat × Envelope}
    (hforgone : r ∈ o.forgone) :
    ∃ id, o.act.padder? = some id ∧ r.2.origin = some id ∧
      ∀ s ∈ o.before.known? id, s.status = .cancelled := by
  have hevents := hstep.events
  obtain ⟨before, act, after⟩ := o
  unfold Occurrence.forgone at hforgone
  split at hforgone
  · next id payload left hact =>
    have hpad : act = .run (.pad id payload left) := hact
    subst hpad
    split at hforgone
    · next hnone =>
      refine ⟨id, rfl, ?_, fun s hknown => ?_⟩
      · obtain ⟨k, -, rfl⟩ := List.mem_map.1 hforgone
        rfl
      · by_contra hlive
        have hknown' : before.known? id = some s := hknown
        cases left with
        | zero => cases hforgone
        | succ left =>
          rw [hevents] at hnone
          simp [actEvents, taskEvents, hknown', hlive] at hnone
    · cases hforgone
  · cases hforgone

theorem le_of_mem_repeats {sleeper : Sleeper} {r : Nat × Envelope} (hr : r ∈ sleeper.repeats) :
    sleeper.wake ≤ r.1 := by
  unfold Sleeper.repeats at hr
  split at hr
  · obtain ⟨k, -, rfl⟩ := List.mem_map.1 hr
    exact Nat.le_add_right _ _
  · cases hr

def repeatsOf (id : SessionId) (repeats : List (Nat × Envelope)) : List (Nat × Envelope) :=
  repeats.filter (·.2.origin = some id)

theorem Run.repeatsOf_forgone (run : Run punctual settings history p)
    (hknown : ∀ o ∈ history, o.act.padder? = some id →
      ∃ s ∈ o.before.known? id, s.status ≠ .cancelled) :
    repeatsOf id (history.flatMap Occurrence.forgone) = [] := by
  rw [repeatsOf, List.filter_eq_nil_iff]
  intro r hr horigin
  obtain ⟨o, ho, hmem⟩ := List.mem_flatMap.1 hr
  obtain ⟨later, earlier, hsplit⟩ := List.append_of_mem ho
  rw [hsplit] at run
  obtain ⟨i, hpadder, hi, hdead⟩ := exists_padder_of_forgone run.cut.2 hmem
  have hsame : i = id := by
    rw [hi] at horigin
    simpa using horigin
  subst hsame
  obtain ⟨s, hs, hlive⟩ := hknown o ho hpadder
  exact hlive (hdead s hs)

theorem Run.called_of_executes (run : Run punctual settings history p) (ho : o ∈ history)
    (hexecutes : o.Executes id s c) : o.called = c.directive.repeats id o.before.clock := by
  obtain ⟨later, earlier, hsplit⟩ := List.append_of_mem ho
  rw [hsplit] at run
  obtain ⟨hrun, hstep⟩ := run.cut
  obtain ⟨i, hcommand, hevents⟩ := hrun.events_of_executes hstep hexecutes
  have hexecutions := executions_of_events hevents (Playhead.quiet_arrivals s id c) hexecutes.1 hcommand
  rw [Occurrence.called, hexecutions]
  exact List.append_nil _

/-- A padding calls for its command as often as it says, ten milliseconds apart. As long as the session
is known and was not cancelled whenever a repeat is due, what was sent and what is still to be sent is
what was called for. A repeat that comes when the session was cancelled or forgotten is given up with
those after it, and nothing else is lost. -/
theorem Run.paddings_are_complete (run : Run True settings history p) :
    (∀ o ∈ history, ∀ id s c padding, o.Executes id s c → c.directive = .pad padding →
        o.called = (List.range padding.count).map fun k =>
          (o.before.clock + 10 * k, ⟨padding.payload, .noQueue, some id⟩)) ∧
      (∀ id, (∀ o ∈ history, o.act.padder? = some id →
          ∃ s ∈ o.before.known? id, s.status ≠ .cancelled) →
        (repeatsOf id (history.flatMap Occurrence.repeated ++ p.due.flatMap Sleeper.repeats)).Perm
          (repeatsOf id (history.flatMap Occurrence.called))) ∧
      (history.flatMap Occurrence.repeated ++ history.flatMap Occurrence.forgone ++
        p.due.flatMap Sleeper.repeats).Perm (history.flatMap Occurrence.called) ∧
      (∀ o ∈ history, ∀ r ∈ o.forgone, ∃ id, o.act.padder? = some id ∧ r.2.origin = some id ∧
        ∀ s ∈ o.before.known? id, s.status = .cancelled) ∧
      ∀ r ∈ p.due.flatMap Sleeper.repeats, p.clock ≤ r.1 := by
  refine ⟨?_, fun id hknown => ?_, run.repeats_perm, fun o ho r hr => ?_, fun r hr => ?_⟩
  · intro o ho id s c padding hexecutes hpad
    rw [run.called_of_executes ho hexecutes, hpad]
    rfl
  · have hperm := run.repeats_perm.filter (·.2.origin = some id)
    have hforgone := run.repeatsOf_forgone hknown
    rw [repeatsOf] at hforgone
    rw [List.filter_append, List.filter_append, hforgone, List.append_nil] at hperm
    rw [repeatsOf, List.filter_append]
    exact hperm
  · obtain ⟨later, earlier, hsplit⟩ := List.append_of_mem ho
    rw [hsplit] at run
    exact exists_padder_of_forgone run.cut.2 hr
  · obtain ⟨sleeper, hdue, hmem⟩ := List.mem_flatMap.1 hr
    exact Nat.le_trans (run.prompt.le_wake hdue) (le_of_mem_repeats hmem)

/-- A session that is over before its padding, which someone keeps an eye on if it is `watched`. -/
def brief (watched : Bool) : List Occurrence × Playback :=
  let launched := ask (.launch (.inline "dance" "/pad 5 /ac jump\n/b <wait.0.02>") (.top none))
    ([], start {})
  let kept := if watched then ask (.hold ⟨1⟩) launched else launched
  follow (fun _ => 100) 40 kept.1 kept.2

theorem run_brief (watched : Bool) : Run True {} (brief watched).1 (brief watched).2 := by
  have hlaunched := Run.launched True {}
    (.inline "dance" "/pad 5 /ac jump\n/b <wait.0.02>") (.top none)
  cases watched with
  | false => exact hlaunched.follow (fun _ => 100) 40
  | true => exact (hlaunched.ask (.hold ⟨1⟩)).follow (fun _ => 100) 40

/-- Held, the session is over after twenty milliseconds, and its padding goes on to the end. -/
theorem paddings_are_complete_brief :
    let played := brief true
    (∀ o ∈ played.1, o.act.padder? = some ⟨1⟩ →
        ∃ s ∈ o.before.known? ⟨1⟩, s.status ≠ .cancelled) ∧
      (∃ o ∈ played.1, o.before.clock = 20 ∧ .reached ⟨1⟩ .ended ∈ o.events) ∧
      (played.1.flatMap Occurrence.repeated).Perm
        ([0, 10, 20, 30, 40].map fun time => (time, ⟨"/ac jump", .noQueue, some ⟨1⟩⟩)) := by
  intro played
  obtain ⟨hknown, hended, hsent, hcalled⟩ :
      (∀ o ∈ played.1, o.act.padder? = some ⟨1⟩ →
          ∃ s ∈ o.before.known? ⟨1⟩, s.status ≠ .cancelled) ∧
        (∃ o ∈ played.1, o.before.clock = 20 ∧ .reached ⟨1⟩ .ended ∈ o.events) ∧
        repeatsOf ⟨1⟩ (played.1.flatMap Occurrence.repeated ++
          played.2.due.flatMap Sleeper.repeats) = played.1.flatMap Occurrence.repeated ∧
        repeatsOf ⟨1⟩ (played.1.flatMap Occurrence.called) =
          [0, 10, 20, 30, 40].map fun time => (time, ⟨"/ac jump", .noQueue, some ⟨1⟩⟩) := by
    decide +kernel
  obtain ⟨-, hcomplete, -⟩ := (run_brief true).paddings_are_complete
  have hperm := hcomplete ⟨1⟩ hknown
  rw [← hcalled, ← hsent]
  exact ⟨hknown, hended, hperm⟩

/-- The end of a session that nobody holds is the end of its paddings. -/
theorem padding_cut_short : ¬∀ history p id, Run True {} history p →
    (∀ o ∈ history, ∀ s ∈ o.after.session? id, s.status ≠ .cancelled) → p.due = [] →
    (repeatsOf id (history.flatMap Occurrence.repeated)).Perm
      (repeatsOf id (history.flatMap Occurrence.called)) := by
  intro hall
  obtain ⟨hlive, hover, hfew, hmany⟩ :
      (∀ o ∈ (brief false).1, ∀ s ∈ o.after.session? ⟨1⟩, s.status ≠ .cancelled) ∧
        (brief false).2.due = [] ∧
        (repeatsOf ⟨1⟩ ((brief false).1.flatMap Occurrence.repeated)).length = 2 ∧
        (repeatsOf ⟨1⟩ ((brief false).1.flatMap Occurrence.called)).length = 5 := by decide +kernel
  have hperm := hall (brief false).1 (brief false).2 ⟨1⟩ (run_brief false) hlive hover
  rw [hperm.length_eq, hmany] at hfew
  cases hfew

end Playback

end Choreo
