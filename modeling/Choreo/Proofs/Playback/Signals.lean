import Choreo.Proofs.Playback.Announcing
import Choreo.Proofs.Playback.Releases

/-!
# What the host is told about its player

The host is told when a session arms a flag and when the flag is released, but not when the flag is
cleared. So once everything is over, the last that it was told is that the flag is released, unless the
flag was cleared after it was armed for the last time, or taken by the host itself for a session that
did not play.
-/

namespace Choreo

def AutoFlag.greeting (settings : Settings) : AutoFlag → String
  | .busy => settings.host.busyOn
  | .mare => settings.host.mareOff

namespace Playback

variable {punctual : Prop} {settings : Settings} {history later earlier : List Occurrence}
variable {p q : Playback} {act : Act} {id : SessionId} {s : Session} {c : Command} {o : Occurrence}
variable {flag : AutoFlag}

/-! ## Deciding what a step does -/

instance (flag : AutoFlag) (o : Occurrence) : Decidable (o.Arms flag) :=
  decidable_of_iff (∃ e ∈ o.executions, e.2.2.directive.flag? = some flag) <| by
    constructor
    · rintro ⟨⟨id, s, c⟩, hmem, hflag⟩
      exact ⟨id, s, c, mem_executions_iff.1 hmem, hflag⟩
    · rintro ⟨id, s, c, hexecutes, hflag⟩
      exact ⟨(id, s, c), mem_executions_iff.2 hexecutes, hflag⟩

def Occurrence.clearedByHost (o : Occurrence) : Bool :=
  match o.act with
  | .serve .disarmAll granted => granted
  | _ => false

theorem clearedByHost_iff : o.clearedByHost = true ↔ o.act = .serve .disarmAll true := by
  unfold Occurrence.clearedByHost
  split
  · next granted hact => simp [hact]
  · next hother =>
    simp only [Bool.false_eq_true, false_iff]
    exact hother true

instance (o : Occurrence) : Decidable o.Clears :=
  decidable_of_iff
    ((∃ e ∈ o.executions, e.2.1.program.goesBack o.before.policy.ignoreLooping e.2.2) ∨
      o.clearedByHost = true) <| by
    refine or_congr ⟨?_, ?_⟩ clearedByHost_iff
    · rintro ⟨⟨id, s, c⟩, hmem, hback⟩
      exact ⟨id, s, c, mem_executions_iff.1 hmem, hback⟩
    · rintro ⟨id, s, c, hexecutes, hback⟩
      exact ⟨(id, s, c), mem_executions_iff.2 hexecutes, hback⟩

def Act.release? : Act → Option (Ticket × String)
  | .run (.release ticket command) => some (ticket, command)
  | _ => none

theorem Act.release?_eq_some_iff {ticket : Ticket} {command : String} :
    act.release? = some (ticket, command) ↔ act = .run (.release ticket command) := by
  unfold Act.release?
  split
  · simp
  · next hother =>
    simp only [reduceCtorEq, false_iff]
    exact hother ticket command

instance (flag : AutoFlag) (o : Occurrence) : Decidable (o.Releases flag) :=
  decidable_of_iff (∃ r ∈ o.act.release?, r.1.flag = flag ∧ .sent ⟨r.2, .queue, none⟩ ∈ o.events) <| by
    constructor
    · rintro ⟨⟨ticket, command⟩, hact, rfl, hsent⟩
      exact ⟨ticket.generation, command, Act.release?_eq_some_iff.1 hact, hsent⟩
    · rintro ⟨generation, command, hact, hsent⟩
      exact ⟨(⟨flag, generation⟩, command), Act.release?_eq_some_iff.2 hact, rfl, hsent⟩

/-! ## Signals -/

/-- What the host is told about a flag in a step: that a session has armed it, or that it is released.
Decorations do not count, which are never queued. -/
def Occurrence.signals (flag : AutoFlag) (o : Occurrence) : List Envelope :=
  o.events.filterMap fun event =>
    match event with
    | .sent envelope =>
      if o.Arms flag ∧ envelope.mode = .queue ∨ o.Releases flag then some envelope else none
    | .reached _ _ => none

def signals (flag : AutoFlag) (history : List Occurrence) : List Envelope :=
  history.reverse.flatMap (Occurrence.signals flag)

theorem signals_append (flag : AutoFlag) (later earlier : List Occurrence) :
    signals flag (later ++ earlier) = signals flag earlier ++ signals flag later := by
  simp [signals]

theorem signals_cons (flag : AutoFlag) (o : Occurrence) (history : List Occurrence) :
    signals flag (o :: history) = signals flag history ++ o.signals flag := by
  simp [signals]

theorem signals_of_quiet (harms : ¬o.Arms flag) (hreleases : ¬o.Releases flag) :
    o.signals flag = [] := by
  rw [Occurrence.signals, List.filterMap_eq_nil_iff]
  intro event _
  split
  · rw [if_neg]
    rintro (⟨harms', -⟩ | hreleases')
    · exact harms harms'
    · exact hreleases hreleases'
  · rfl

theorem signals_of_sends {first : List Event} {envelopes : List Envelope}
    (hevents : o.events = first ++ envelopes.map .sent)
    (hfirst : ∀ envelope, .sent envelope ∉ first) :
    o.signals flag =
      envelopes.filter fun envelope => o.Arms flag ∧ envelope.mode = .queue ∨ o.Releases flag := by
  rw [Occurrence.signals, hevents, List.filterMap_append, List.filterMap_eq_nil_iff.2 ?_,
    List.nil_append, List.filterMap_map]
  · rw [← List.filterMap_eq_filter]
    apply List.filterMap_congr
    intro envelope _
    simp [Option.guard]
  · intro event hevent
    cases event with
    | sent envelope => exact absurd hevent (hfirst envelope)
    | reached id milestone => rfl

theorem queued_of_flag? (hflag : c.directive.flag? = some flag) (settings : Settings)
    (id : SessionId) :
    (c.envelopes settings.host id).filter (·.mode = .queue) =
      [⟨flag.greeting settings, .queue, some id⟩] := by
  unfold Command.envelopes
  cases hdirective : c.directive with
  | busy decorated =>
    rw [hdirective] at hflag
    cases hflag
    cases decorated with
    | false => rfl
    | true => simp [AutoFlag.greeting, List.filter_eq_nil_iff]
  | mare =>
    rw [hdirective] at hflag
    cases hflag
    rfl
  | _ =>
    rw [hdirective] at hflag
    cases hflag

section Steps

variable (run : Run punctual settings history p) (hstep : Step punctual p act q)

include run hstep

theorem Run.events_of_executes (hexecutes : Occurrence.Executes id ⟨p, act, q⟩ s c) :
    ∃ i, s.program.commands[i]? = some c ∧ Occurrence.events ⟨p, act, q⟩ =
      s.arrivals id c ++ .reached id (.executed i) :: (c.envelopes settings.host id).map .sent := by
  obtain ⟨head, i, hact, hcommand, hexecuted⟩ := hexecutes.played hstep
  have hact' : act = .run (.play id head) := hact
  subst hact'
  obtain ⟨solo, hshows, rfl, hsolo⟩ := run.apart_of_session? hexecutes.1
  have hevents := hstep.events_play hshows.session
  have hsettings : p.surroundings.settings = settings := run.settings_eq
  simp only at hexecuted
  cases head.step_plans p.surroundings solo.session hsolo.cancelled_iff id with
  | none hnone => rcases hnone _ hexecuted with heq | heq | ⟨_, heq⟩ <;> cases heq
  | @executed j d hcommand' hwritten =>
    have hsame : i = j := by
      rwa [hwritten, Playhead.mem_executed_iff] at hexecuted
    have heq : d = c := by
      rw [hsame, hcommand'] at hcommand
      exact Option.some.inj hcommand
    rw [hwritten, hsettings, heq] at hevents
    rw [heq] at hcommand'
    exact ⟨j, hcommand', hevents⟩

theorem Run.signals_of_arms (harms : Occurrence.Arms flag ⟨p, act, q⟩) :
    ∃ id, Occurrence.signals flag ⟨p, act, q⟩ = [⟨flag.greeting settings, .queue, some id⟩] := by
  have harms' := harms
  obtain ⟨id, s, c, hexecutes, hflag⟩ := harms'
  obtain ⟨i, -, hevents⟩ := run.events_of_executes hstep hexecutes
  have hreleases : ¬Occurrence.Releases flag ⟨p, act, q⟩ := by
    rintro ⟨_, _, hrelease, -⟩
    obtain ⟨_, _, hplay, -⟩ := hexecutes.played hstep
    cases hplay.symm.trans hrelease
  rw [List.append_cons] at hevents
  refine ⟨id, ?_⟩
  rw [signals_of_sends hevents]
  · simp only [harms, hreleases, true_and, or_false]
    exact queued_of_flag? hflag settings id
  · intro envelope hmem
    rcases List.mem_append.1 hmem with hmem | hmem
    · exact Playhead.quiet_arrivals s id c _ hmem
    · cases List.mem_singleton.1 hmem

theorem Run.signals_of_releases (hreleases : Occurrence.Releases flag ⟨p, act, q⟩) :
    Occurrence.signals flag ⟨p, act, q⟩ = [⟨flag.farewell settings, .queue, none⟩] := by
  have hreleases' := hreleases
  obtain ⟨generation, command, hact, hsent⟩ := hreleases'
  have hact' : act = .run (.release ⟨flag, generation⟩ command) := hact
  subst hact'
  obtain ⟨before, after, hready, -⟩ := hstep.eq_of_run
  have hmem : .release ⟨flag, generation⟩ command ∈ p.ready := by
    rw [hready]
    simp
  obtain ⟨later, o, earlier, hsplit, sleeper, hplanned, htask, -⟩ := run.exists_planned hmem
  rw [hsplit] at run
  obtain ⟨-, _, _, -, -, -, -, hcommand, -⟩ := exists_ended_of_mem_actDue hplanned htask
  have hsettings : o.before.settings = settings := run.cut.1.settings_eq
  have hfarewell : flag.farewell settings = command := by rw [hcommand, hsettings]
  rw [hstep.events_release] at hsent
  split at hsent
  · next hhonours =>
    have hsends : Occurrence.events ⟨p, .run (.release ⟨flag, generation⟩ command), q⟩ =
        [] ++ [Envelope.mk command .queue none].map .sent := by
      rw [hstep.events_release, if_pos hhonours]
      rfl
    rw [signals_of_sends hsends fun _ => List.not_mem_nil, hfarewell]
    simp [hreleases]
  · cases hsent

omit run in
theorem eq_of_armedFor? (hhost : Occurrence.armedFor? flag ⟨p, act, q⟩ = some id) :
    act = .serve (.arm id flag) true ∧ q = p.arm id flag := by
  unfold Occurrence.armedFor? at hhost
  split at hhost
  · next id' other granted hact =>
    have hact' : act = .serve (.arm id' other) granted := hact
    subst hact'
    split at hhost
    · next hsame =>
      cases hhost
      subst hsame
      cases hstep with
      | serve => exact ⟨rfl, rfl⟩
    · cases hhost
  · cases hhost

theorem Run.generation_le (flag : AutoFlag) :
    (p.policy.flag flag).generation ≤ (q.policy.flag flag).generation := by
  cases hhost : Occurrence.armedFor? flag ⟨p, act, q⟩ with
  | none => exact (run.turns hstep hhost).generation.1
  | some id =>
    obtain ⟨-, rfl⟩ := eq_of_armedFor? hstep hhost
    have hafter : (p.arm id flag).policy.flag flag = (p.policy.flag flag).arm id :=
      Policy.flag_setFlag_self p.policy flag _
    rw [hafter]
    exact Nat.le_succ _

end Steps

theorem Run.current (run : Run punctual settings history p) : p.Current := by
  induction run with
  | start => exact fun ticket hticket => absurd rfl hticket
  | step run hstep ih => exact current_step ih run hstep (run.generation_le hstep)

/-! ## What becomes of a flag that was armed -/

/-- A flag that the host arms for a session that plays belongs to it like any other. -/
theorem tended_of_armedFor? (run : Run punctual settings history p) (hplaying : p.places id ≠ []) :
    (p.arm id flag).Tended flag := by
  have hafter : (p.arm id flag).policy.flag flag = (p.policy.flag flag).arm id :=
    Policy.flag_setFlag_self p.policy flag _
  have hnone : p.releases ⟨flag, (p.policy.flag flag).generation + 1⟩ = 0 := by
    by_contra hplanned
    have hle := run.current _ hplanned
    simp only at hle
    omega
  rcases run.apart id with ⟨hlacks, -⟩ | ⟨solo, hshows, -⟩
  · exact absurd hlacks.places hplaying
  · refine ⟨id, solo.session, ?_, hshows.session, .inl ⟨hplaying, ?_⟩⟩
    · rw [hafter]
      rfl
    · rw [hafter]
      exact hnone

theorem tended_of_arms (run : Run punctual settings history p) (hstep : Step punctual p act q)
    (harms : Occurrence.Arms flag ⟨p, act, q⟩) :
    (q.policy.flag flag).armed = true ∧ q.Tended flag := by
  have hhost : Occurrence.armedFor? flag ⟨p, act, q⟩ = none := by
    obtain ⟨_, _, _, hexecutes, -⟩ := harms
    obtain ⟨_, _, hact, -⟩ := hexecutes.played hstep
    have hact' : act = _ := hact
    rw [hact']
    rfl
  cases run.turns hstep hhost with
  | kept hother => exact absurd harms hother
  | armed _ hact hs hnext hafter =>
    refine ⟨?_, tended_of_armed run hstep run.current hact hs hnext hafter⟩
    show (q.policy.flag flag).armed = true
    rw [hafter]
    rfl
  | cleared hother => exact absurd harms hother

theorem signals_of_keeps (hstep : Step punctual p act q)
    (hkeeps : Occurrence.Keeps flag ⟨p, act, q⟩) : Occurrence.signals flag ⟨p, act, q⟩ = [] :=
  signals_of_quiet hkeeps.arms fun hreleases =>
    (hkeeps.clears (hreleases.honours hstep).1).2 hreleases

theorem not_releases_of_clears (hstep : Step punctual o.before o.act o.after) (hclears : o.Clears) :
    ¬o.Releases flag := by
  rintro ⟨_, _, hrelease, -⟩
  rcases hclears with ⟨_, _, _, hexecutes, -⟩ | hdisarm
  · obtain ⟨_, _, hplay, -⟩ := hexecutes.played hstep
    cases hplay.symm.trans hrelease
  · cases hdisarm.symm.trans hrelease

theorem Run.unarmed_of_clears (run : Run punctual settings history o.before)
    (hstep : Step punctual o.before o.act o.after)
    (hbefore : (o.before.policy.flag flag).armed = true) (hclears : o.Clears)
    (harms : ¬o.Arms flag) (hhost : o.armedFor? flag = none) :
    (o.after.policy.flag flag).armed = false := by
  cases run.turns hstep hhost with
  | kept _ hby => exact absurd hclears (hby hbefore).1
  | armed harms' => exact absurd harms' harms
  | cleared _ _ _ hafter =>
    have hflag : o.after.policy.flag flag = (o.before.policy.flag flag).disarm := hafter
    rw [hflag, FlagState.disarm, if_pos hbefore]

section Since

variable (run : Run punctual settings (later ++ o :: earlier) p)
variable (hlast : ∀ o' ∈ later, ¬o'.Arms flag)

include run hlast

/-- If nothing clears a flag since it was armed, it is looked after as long as it is armed, and when it
is not, then the host was told so. -/
theorem Run.released_of_not_cleared (harms : o.Arms flag)
    (hhost : ∀ o' ∈ later, ∀ id ∈ o'.armedFor? flag, o'.before.places id ≠ [])
    (hclears : ∀ o' ∈ later, (o'.before.policy.flag flag).armed = true → ¬o'.Clears) :
    ((p.policy.flag flag).armed = true → p.Tended flag) ∧
      ((p.policy.flag flag).armed = false →
        (signals flag later).getLast? = some ⟨flag.farewell settings, .queue, none⟩) := by
  induction later generalizing p with
  | nil =>
    cases run with
    | step run hstep =>
      obtain ⟨harmed, htended⟩ := tended_of_arms run hstep harms
      exact ⟨fun _ => htended, fun hfalse => by rw [harmed] at hfalse; cases hfalse⟩
  | cons o' later ih =>
    cases run with
    | @step _ before _ act run hstep =>
      obtain ⟨htended, htold⟩ := ih run (fun o ho => hlast o (List.mem_cons_of_mem _ ho))
        (fun o ho => hhost o (List.mem_cons_of_mem _ ho))
        fun o ho => hclears o (List.mem_cons_of_mem _ ho)
      rw [signals_cons]
      cases hfor : Occurrence.armedFor? flag ⟨before, act, p⟩ with
      | some id =>
        have hplaying := hhost _ List.mem_cons_self id hfor
        obtain ⟨-, rfl⟩ := eq_of_armedFor? hstep hfor
        have hafter : (before.arm id flag).policy.flag flag = (before.policy.flag flag).arm id :=
          Policy.flag_setFlag_self before.policy flag _
        refine ⟨fun _ => tended_of_armedFor? run hplaying, fun hfalse => ?_⟩
        rw [hafter] at hfalse
        cases hfalse
      | none =>
        cases run.turns hstep hfor with
        | kept hother hby hafter =>
          have hkeeps : Occurrence.Keeps flag ⟨before, act, p⟩ := ⟨hafter, hother, hby⟩
          have hflag : p.policy.flag flag = before.policy.flag flag := hafter
          rw [signals_of_keeps hstep hkeeps, List.append_nil, hflag]
          exact ⟨fun harmed => tended_of_kept (htended harmed) run hstep hkeeps harmed, htold⟩
        | armed harms' => exact absurd harms' (hlast _ List.mem_cons_self)
        | cleared hother hby hbefore hafter =>
          have hreleases : Occurrence.Releases flag ⟨before, act, p⟩ :=
            hby.resolve_left (hclears _ List.mem_cons_self hbefore)
          have hunarmed : (p.policy.flag flag).armed = false := (hreleases.honours hstep).2
          rw [run.signals_of_releases hstep hreleases]
          refine ⟨fun harmed => ?_, fun _ => List.getLast?_concat⟩
          rw [hunarmed] at harmed
          cases harmed

theorem Run.silent_of_cleared (hhost : ∀ o' ∈ later, o'.armedFor? flag = none)
    (hcleared : ∃ o' ∈ later, (o'.before.policy.flag flag).armed = true ∧ o'.Clears) :
    signals flag later = [] := by
  obtain ⟨o', ho', harmed, hclears⟩ := hcleared
  obtain ⟨after, before, rfl⟩ := List.append_of_mem ho'
  rw [List.append_assoc, List.cons_append] at run
  obtain ⟨hrun, hstep⟩ := run.cut
  -- Before it was cleared it was not released, since it was armed then.
  have hbefore : ∀ o'' ∈ before, ¬o''.Releases flag := by
    intro o'' ho'' hreleases
    obtain ⟨late, early, rfl⟩ := List.append_of_mem ho''
    rw [List.append_assoc, List.cons_append] at hrun
    have hunarmed := hrun.stays_unarmed (fun x hx => hhost x (by simp [hx]))
      (fun x hx => hlast x (by simp [hx])) (hreleases.honours hrun.cut.2).2
    rw [harmed] at hunarmed
    cases hunarmed
  have hafter : ∀ o'' ∈ after, ¬o''.Releases flag := by
    intro o'' ho'' hreleases
    obtain ⟨late, early, rfl⟩ := List.append_of_mem ho''
    rw [List.append_assoc, List.cons_append] at run
    obtain ⟨hrun', hstep'⟩ := run.cut
    have hunarmed := hrun'.stays_unarmed (fun x hx => hhost x (by simp [hx]))
      (fun x hx => hlast x (by simp [hx])) (hrun.unarmed_of_clears hstep harmed hclears
        (hlast o' ho') (hhost o' ho'))
    rw [(hreleases.honours hstep').1] at hunarmed
    cases hunarmed
  rw [signals, List.flatMap_eq_nil_iff]
  intro o'' ho''
  rw [List.mem_reverse] at ho''
  refine signals_of_quiet (hlast o'' ho'') ?_
  rcases List.mem_append.1 ho'' with hlate | hearly
  · exact hafter o'' hlate
  · rcases List.mem_cons.1 hearly with rfl | hearly
    · exact not_releases_of_clears hstep hclears
    · exact hbefore o'' hearly

end Since

/-- Once everything is over, the last that the host was told about a flag is that it is released, if
nothing has cleared the flag since a session armed it for the last time, and the host has not armed it
itself for a session that did not play. If the flag was cleared, the last is that it was armed. -/
theorem Run.last_signal (run : Run punctual settings history p) (hgone : ∀ id, p.places id = [])
    (hnone : ∀ ticket, p.releases ticket = 0) (flag : AutoFlag) (harms : ∃ o ∈ history, o.Arms flag) :
    ∃ later o earlier id, history = later ++ o :: earlier ∧ o.Arms flag ∧
      (∀ o' ∈ later, ¬o'.Arms flag) ∧
      o.signals flag = [⟨flag.greeting settings, .queue, some id⟩] ∧
      ((∀ o' ∈ later, (o'.before.policy.flag flag).armed = true → ¬o'.Clears) →
        (∀ o' ∈ later, ∀ id ∈ o'.armedFor? flag, o'.before.places id ≠ []) →
        (signals flag history).getLast? = some ⟨flag.farewell settings, .queue, none⟩) ∧
      ((∃ o' ∈ later, (o'.before.policy.flag flag).armed = true ∧ o'.Clears) →
        (∀ o' ∈ later, o'.armedFor? flag = none) →
        (signals flag history).getLast? = some ⟨flag.greeting settings, .queue, some id⟩) := by
  have hfound : (history.find? fun o => o.Arms flag).isSome := by
    simpa using harms
  obtain ⟨o, ho⟩ := Option.isSome_iff_exists.1 hfound
  obtain ⟨harmed, later, earlier, hsplit, hlast⟩ := List.find?_eq_some_iff_append.1 ho
  simp only [decide_eq_true_eq] at harmed
  simp only [Bool.not_eq_eq_eq_not, Bool.not_true, decide_eq_false_iff_not] at hlast
  subst hsplit
  obtain ⟨hrun, hstep⟩ := run.cut
  obtain ⟨id, hsignal⟩ := hrun.signals_of_arms hstep harmed
  refine ⟨later, o, earlier, id, rfl, harmed, hlast, hsignal, fun hclears hhost => ?_,
    fun hcleared hhost => ?_⟩
  · obtain ⟨htended, htold⟩ := run.released_of_not_cleared hlast harmed hhost hclears
    have hunarmed : (p.policy.flag flag).armed = false := by
      rw [Bool.eq_false_iff]
      intro harmed'
      obtain ⟨id, s, -, -, ⟨hplaying, -⟩ | ⟨-, hplanned⟩⟩ := htended harmed'
      · exact hplaying (hgone id)
      · rw [hnone] at hplanned
        cases hplanned
    rw [signals_append, List.getLast?_append, htold hunarmed]
    rfl
  · rw [signals_append, run.silent_of_cleared hlast hhost hcleared, List.append_nil,
      signals_cons, hsignal]
    exact List.getLast?_concat

/-- Two sessions arm a flag one after the other, and it is released once. -/
theorem last_signal_takenOver :
    let played := follow (fun _ => 3500) 1 takenOver.1 takenOver.2
    (∀ id, played.2.places id = []) ∧ (∀ ticket, played.2.releases ticket = 0) ∧
      (∃ o ∈ played.1, o.Arms .busy) ∧
      (signals .busy played.1).getLast? = some ⟨"/busy off", .queue, none⟩ := by
  intro played
  obtain ⟨hready, hsleepers, harms, hclears, hhost⟩ :
      played.2.ready = [] ∧ played.2.sleepers = [] ∧ (∃ o ∈ played.1, o.Arms .busy) ∧
        (∀ o ∈ played.1, (o.before.policy.flag .busy).armed = true → ¬o.Clears) ∧
        ∀ o ∈ played.1, o.armedFor? .busy = none := by decide +kernel
  have hgone (id : SessionId) : played.2.places id = [] := by simp [places, hready, hsleepers]
  have hnone (ticket : Ticket) : played.2.releases ticket = 0 := by
    simp [releases, due, hready, hsleepers, ticketsOf]
  obtain ⟨later, o, earlier, id, hsplit, -, -, -, hreleased, -⟩ :=
    (run_takenOver.follow (fun _ => 3500) 1).last_signal hgone hnone .busy harms
  have hlater : ∀ o' ∈ later, o' ∈ played.1 := by
    intro o' ho'
    show o' ∈ (follow (fun _ => 3500) 1 takenOver.1 takenOver.2).1
    rw [hsplit]
    exact List.mem_append_left _ ho'
  refine ⟨hgone, hnone, harms, hreleased (fun o' ho' => hclears o' (hlater o' ho')) ?_⟩
  intro o' ho' id hid
  rw [hhost o' (hlater o' ho')] at hid
  cases hid

/-- A session goes back to its beginning after it has armed a flag, and is cancelled before it comes to
arming it again. -/
def turnedBack : List Occurrence × Playback :=
  let launched := ask (.launch (.inline "song" "/a <wait.0.1>\n/autobusy\n/b <wait.0.1>\n/loop")
    (.top none)) ([], start {})
  let played := ask (.cancel ⟨1⟩) (follow (fun _ => 250) 40 launched.1 launched.2)
  follow (fun _ => 5000) 10 played.1 played.2

theorem left_busy : ¬∀ history p, Run True {} history p → (∀ id, p.places id = []) →
    (∀ ticket, p.releases ticket = 0) → (∃ o ∈ history, o.Arms .busy) →
    (signals .busy history).getLast? = some ⟨AutoFlag.busy.farewell {}, .queue, none⟩ := by
  intro hall
  have hlaunched := Run.launched True {} (.inline "song"
    "/a <wait.0.1>\n/autobusy\n/b <wait.0.1>\n/loop") (.top none)
  have hrun := ((hlaunched.follow (fun _ => 250) 40).ask (.cancel ⟨1⟩)).follow (fun _ => 5000) 10
  obtain ⟨hready, hsleepers, harms, hlast⟩ :
      turnedBack.2.ready = [] ∧ turnedBack.2.sleepers = [] ∧ (∃ o ∈ turnedBack.1, o.Arms .busy) ∧
        (signals .busy turnedBack.1).getLast? = some ⟨"/busy on", .queue, some ⟨1⟩⟩ := by
    decide +kernel
  have hreleased := hall turnedBack.1 turnedBack.2 hrun
    (fun id => by simp [places, hready, hsleepers])
    (fun ticket => by simp [releases, due, hready, hsleepers, ticketsOf]) harms
  rw [hlast] at hreleased
  exact absurd hreleased (by decide)

/-- The host may also take the flag itself, for a session that does not play. -/
example :
    let launched := ask (.launch (.inline "song" "/autobusy\n/b <wait.0.1>") (.top none)) ([], start {})
    let begun := follow (fun _ => 50) 20 launched.1 launched.2
    let taken := ask (.arm ⟨9⟩ .busy) begun
    let finished := follow (fun _ => 5000) 20 taken.1 taken.2
    finished.2.due = [] ∧ (signals .busy finished.1).getLast? = some ⟨"/busy on", .queue, some ⟨1⟩⟩ := by
  decide +kernel

end Playback

end Choreo
