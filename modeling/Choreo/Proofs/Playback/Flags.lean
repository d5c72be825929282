import Choreo.Proofs.Playback.Order
import Choreo.Proofs.Playback.Tasks
import Choreo.Proofs.Policy

/-!
# What becomes of the flags

A flag belongs to the session that armed it last. It may be taken over by another one, a loop of any
session clears it, and so does a release that comes in time. `Run.turns` says that nothing else in a
run does anything to a flag, and that the generation of a flag grows whenever something does.
-/

namespace Choreo

def Directive.flag? : Directive → Option AutoFlag
  | .busy _ => some .busy
  | .mare => some .mare
  | _ => none

/-- The policy after a session has executed a directive, apart from looping. -/
def Directive.onPolicy (id : SessionId) (policy : Policy) (d : Directive) : Policy :=
  match d.flag? with
  | some flag => policy.arm flag id
  | none => policy

/-! ## What a playhead does to the flags -/

theorem foldl_onPolicy_of_idle {id : SessionId} {effects : List Effect}
    (hidle : ∀ effect ∈ effects, ∀ policy, effect.onPolicy id policy = policy) (policy : Policy) :
    effects.foldl (Effect.onPolicy id) policy = policy := by
  induction effects with
  | nil => rfl
  | cons effect effects ih =>
    rw [List.foldl_cons, hidle effect List.mem_cons_self]
    exact ih fun effect' heffect => hidle effect' (List.mem_cons_of_mem _ heffect)

namespace Session

theorem landing_idle (s : Session) (id : SessionId) :
    ∀ effect ∈ s.landing, ∀ policy, effect.onPolicy id policy = policy := by
  unfold landing
  intro effect heffect policy
  split at heffect
  · cases heffect
  · cases List.mem_singleton.1 heffect
    rfl

theorem countdownAtEntry_idle (s : Session) (c : Command) (id : SessionId) :
    ∀ effect ∈ (s.countdownAtEntry c).2, ∀ policy, effect.onPolicy id policy = policy := by
  unfold countdownAtEntry
  intro effect heffect policy
  split at heffect
  · cases heffect
  · cases heffect
  · split at heffect
    · cases heffect
    · split at heffect
      · split at heffect
        · cases List.mem_singleton.1 heffect
          rfl
        · cases heffect
      · cases heffect

theorem arrive_idle (s : Session) (i : Nat) (c : Command) (now : Instant) (id : SessionId) :
    ∀ effect ∈ (s.arrive i c now).2, ∀ policy, effect.onPolicy id policy = policy := by
  intro effect heffect policy
  simp only [arrive] at heffect
  split at heffect
  · rcases List.mem_cons.1 heffect with rfl | hentry
    · rfl
    · exact countdownAtEntry_idle _ c id effect hentry policy
  · cases heffect

theorem sends_idle (commands : List String) (mode : DispatchMode) (id : SessionId) :
    ∀ effect ∈ commands.map (Effect.send · mode), ∀ policy, effect.onPolicy id policy = policy := by
  intro effect heffect policy
  obtain ⟨command, -, rfl⟩ := List.mem_map.1 heffect
  rfl

theorem foldl_perform_onPolicy (s : Session) (settings : Settings) (c : Command) (id : SessionId)
    (policy : Policy) :
    (s.perform settings c).2.foldl (Effect.onPolicy id) policy = c.directive.onPolicy id policy := by
  have hsend (command : String) (mode : DispatchMode) (policy : Policy) :
      Effect.onPolicy id policy (.send command mode) = policy := rfl
  unfold perform
  cases hdirective : c.directive with
  | animationCancel =>
    simp only [List.foldl_append, foldl_onPolicy_of_idle (sends_idle _ _ id), List.foldl_cons,
      List.foldl_nil, hsend, Directive.onPolicy, Directive.flag?]
  | busy decorated =>
    simp only [List.foldl_cons, foldl_onPolicy_of_idle (sends_idle _ _ id), hsend]
    rfl
  | _ => rfl

theorem foldl_execute_onPolicy (s : Session) (v : Surroundings) (i : Nat) (c : Command)
    (id : SessionId) (policy : Policy) :
    (s.execute v i c).2.foldl (Effect.onPolicy id) policy = c.directive.onPolicy id policy := by
  simp only [execute]
  rw [List.foldl_append, List.foldl_append, foldl_onPolicy_of_idle (s.landing_idle id),
    foldl_onPolicy_of_idle (arrive_idle _ i c v.now id), List.foldl_cons]
  exact foldl_perform_onPolicy _ v.settings c id policy

end Session

namespace Playhead

variable {h : Playhead} {v : Surroundings} {s : Session} {id : SessionId}

/-- What a step of a playhead does to the policy. Whoever ends leaves it as it is. -/
inductive Rules (id : SessionId) (v : Surroundings) (s : Session) (policy : Policy) (move : Move) :
    Prop where
  | none (hevents : ∀ i, .reached id (.executed i) ∉ move.events id)
      (hpolicy : move.effects.foldl (Effect.onPolicy id) policy = policy)
  | executed {i : Nat} {c : Command} (hcommand : s.program.commands[i]? = some c)
      (hevents : ∀ j, .reached id (.executed j) ∈ move.events id ↔ j = i)
      (hnext : move.next ≠ .ended) (hback : ¬s.program.goesBack v.ignoreLooping c)
      (hpolicy : move.effects.foldl (Effect.onPolicy id) policy = c.directive.onPolicy id policy)
  | wentBack {i : Nat} {c : Command} (hcommand : s.program.commands[i]? = some c)
      (hevents : ∀ j, .reached id (.executed j) ∈ move.events id ↔ j = i)
      (hnext : move.next ≠ .ended) (hback : s.program.goesBack v.ignoreLooping c)
      (hpolicy : move.effects.foldl (Effect.onPolicy id) policy = policy.disarmAll)

theorem mem_executed_iff (s : Session) (id : SessionId) (c : Command) (i j : Nat)
    (envelopes : List Envelope) :
    .reached id (.executed j) ∈
        s.arrivals id c ++ .reached id (.executed i) :: envelopes.map Event.sent ↔ j = i := by
  have hfirst : Event.reached id (.executed j) ∉ s.arrivals id c := fun hmem =>
    absurd (quiet_arrivals s id c _ hmem) fun hexecuted => hexecuted
  have hrest : Event.reached id (.executed j) ∉ envelopes.map Event.sent := by
    intro hmem
    obtain ⟨envelope, -, hsent⟩ := List.mem_map.1 hmem
    cases hsent
  rw [List.mem_append, List.mem_cons]
  constructor
  · rintro (hmem | heq | hmem)
    · exact absurd hmem hfirst
    · cases heq
      rfl
    · exact absurd hmem hrest
  · rintro rfl
    exact .inr (.inl rfl)

theorem step_rules (h : Playhead) (v : Surroundings) (s : Session) (id : SessionId)
    (hflag : s.cancelled = true ↔ s.status = .cancelled) (policy : Policy) :
    Rules id v s policy (h.step v s) := by
  have houtcome := h.step_outcome v s
  generalize h.step v s = move at houtcome
  cases houtcome with
  | @wentBack c hstage hstop hplaying hcommand hback =>
    refine .wentBack hcommand (fun j => ?_) (by simp) hback ?_
    · rw [s.wentBack_events (live_of_stopped? hflag hstop)]
      exact mem_executed_iff s id c _ j _
    · rw [List.foldl_append, s.foldl_execute_onPolicy, Directive.onPolicy, hback.1]
      rfl
  | @wentOn c hstage hstop hplaying hcommand hback hskips =>
    refine .executed hcommand (fun j => ?_) (by simp) hback (s.foldl_execute_onPolicy v _ c id policy)
    rw [s.wentOn_events (live_of_stopped? hflag hstop)]
    exact mem_executed_iff s id c _ j _
  | @held c hstage hstop hplaying hcommand hskips =>
    refine .executed hcommand (fun j => ?_) ?_ (not_goesBack_of_not_skipsWait hskips)
      (s.foldl_execute_onPolicy v _ c id policy)
    · rw [s.held_events (live_of_stopped? hflag hstop)]
      exact mem_executed_iff s id c _ j _
    · unfold waiting
      split <;> simp
  | ranOut hstage hstop hplaying hcommand =>
    refine .none (fun i hmem => ?_) ?_
    · have hreach := (reach_of_mem_events hmem).2
      unfold Session.landing at hreach
      split at hreach <;> simp at hreach
    · rw [List.foldl_append, foldl_onPolicy_of_idle (s.landing_idle id)]
      rfl
  | refused | stopped | began =>
    refine .none (fun i hmem => ?_) rfl
    have hreach := (reach_of_mem_events hmem).2
    cases List.mem_singleton.1 hreach
  | _ => exact .none (fun i hmem => by cases hmem) rfl

end Playhead

namespace Playback

variable {punctual : Prop} {settings : Settings} {history later earlier : List Occurrence}
variable {p q : Playback} {act : Act} {id : SessionId} {s : Session} {o : Occurrence}
variable {flag : AutoFlag} {task : Task} {c : Command}

/-! ## What a step does to a flag -/

def Occurrence.Executes (id : SessionId) (o : Occurrence) (s : Session) (c : Command) : Prop :=
  o.before.session? id = some s ∧
    ∃ i, .reached id (.executed i) ∈ o.events ∧ s.program.commands[i]? = some c

def Occurrence.executions (o : Occurrence) : List (SessionId × Session × Command) :=
  o.events.filterMap fun event =>
    match event with
    | .reached id (.executed i) =>
      (o.before.session? id).bind fun s => (s.program.commands[i]?).map fun c => (id, s, c)
    | _ => none

theorem mem_executions_iff : (id, s, c) ∈ o.executions ↔ o.Executes id s c := by
  simp only [Occurrence.executions, List.mem_filterMap]
  constructor
  · rintro ⟨event, hmem, hevent⟩
    split at hevent
    · obtain ⟨s', hs', hcommand⟩ := Option.bind_eq_some_iff.1 hevent
      obtain ⟨c', hcommand', heq⟩ := Option.map_eq_some_iff.1 hcommand
      cases heq
      exact ⟨hs', _, hmem, hcommand'⟩
    · cases hevent
  · rintro ⟨hs, i, hexecuted, hcommand⟩
    exact ⟨_, hexecuted, by simp [hs, hcommand]⟩

/-- A session arms a flag by executing a directive. -/
def Occurrence.Arms (flag : AutoFlag) (o : Occurrence) : Prop :=
  ∃ id s c, o.Executes id s c ∧ c.directive.flag? = some flag

/-- A session goes back to its beginning, which clears all flags, or the host clears them. -/
def Occurrence.Clears (o : Occurrence) : Prop :=
  (∃ id s c, o.Executes id s c ∧ s.program.goesBack o.before.policy.ignoreLooping c) ∨
    o.act = .serve .disarmAll true

def Occurrence.Releases (flag : AutoFlag) (o : Occurrence) : Prop :=
  ∃ generation command, o.act = .run (.release ⟨flag, generation⟩ command) ∧
    .sent ⟨command, .queue, none⟩ ∈ o.events

def Occurrence.armedByHost (o : Occurrence) : Bool :=
  match o.act with
  | .serve (.arm _ _) _ => true
  | _ => false

/-- The session for which the host arms a flag by itself. -/
def Occurrence.armedFor? (flag : AutoFlag) (o : Occurrence) : Option SessionId :=
  match o.act with
  | .serve (.arm id other) _ => if other = flag then some id else none
  | _ => none

theorem armedFor?_eq_none (hhost : o.armedByHost = false) (flag : AutoFlag) :
    o.armedFor? flag = none := by
  unfold Occurrence.armedByHost at hhost
  unfold Occurrence.armedFor?
  split at hhost
  · cases hhost
  · rfl

/-- Everything that a step may do to a flag. -/
inductive Occurrence.Turns (flag : AutoFlag) (o : Occurrence) : Prop where
  | kept (harms : ¬o.Arms flag)
      (hclears : (o.before.policy.flag flag).armed = true → ¬o.Clears ∧ ¬o.Releases flag)
      (hafter : o.after.policy.flag flag = o.before.policy.flag flag)
  | armed {id : SessionId} {head : Playhead} {s : Session} (harms : o.Arms flag)
      (hact : o.act = .run (.play id head)) (hs : o.before.session? id = some s)
      (hnext : (head.step o.before.surroundings s).next ≠ .ended)
      (hafter : o.after.policy.flag flag = (o.before.policy.flag flag).arm id)
  | cleared (harms : ¬o.Arms flag) (hby : o.Clears ∨ o.Releases flag)
      (hbefore : (o.before.policy.flag flag).armed = true)
      (hafter : o.after.policy.flag flag = (o.before.policy.flag flag).disarm)

theorem flag_onPolicy (id : SessionId) (policy : Policy) (d : Directive) (flag : AutoFlag) :
    (d.onPolicy id policy).flag flag =
      if d.flag? = some flag then (policy.flag flag).arm id else policy.flag flag := by
  unfold Directive.onPolicy
  cases hflag : d.flag? with
  | none => simp
  | some other =>
    simp only [Option.some.injEq]
    exact policy.flag_arm other id flag

theorem Occurrence.Executes.played (h : o.Executes id s c)
    (hstep : Step punctual o.before o.act o.after) :
    ∃ head i, o.act = .run (.play id head) ∧ s.program.commands[i]? = some c ∧
      .reached id (.executed i) ∈ (head.step o.before.surroundings s).events id := by
  obtain ⟨hs, i, hexecuted, hcommand⟩ := h
  rw [hstep.events] at hexecuted
  obtain ⟨head, s', hact, hs', hexecuted⟩ := exists_play_of_reached hexecuted
  rw [hs] at hs'
  cases hs'
  exact ⟨head, i, hact, hcommand, hexecuted⟩

theorem Occurrence.Executes.of_play {id' : SessionId} {s' : Session} {head : Playhead}
    (h : o.Executes id' s' c) (hstep : Step punctual o.before o.act o.after)
    (hact : o.act = .run (.play id head)) (hs : o.before.session? id = some s) :
    s' = s ∧ ∃ i, s.program.commands[i]? = some c ∧
      .reached id (.executed i) ∈ (head.step o.before.surroundings s).events id := by
  obtain ⟨head', i, hact', hcommand, hexecuted⟩ := h.played hstep
  have hs' := h.1
  cases hact.symm.trans hact'
  rw [hs] at hs'
  cases hs'
  exact ⟨rfl, i, hcommand, hexecuted⟩

theorem turns_of_clears (harms : ¬o.Arms flag) (hclears : o.Clears)
    (hafter : o.after.policy.flag flag = (o.before.policy.flag flag).disarm) : o.Turns flag := by
  cases harmed : (o.before.policy.flag flag).armed with
  | true => exact .cleared harms (.inl hclears) harmed hafter
  | false =>
    refine .kept harms (fun htrue => ?_) (hafter.trans (FlagState.disarm_of_not_armed harmed))
    rw [harmed] at htrue
    cases htrue

section Turns

variable (hstep : Step punctual p act q)

include hstep

theorem not_executes (hplay : ∀ id head, act ≠ .run (.play id head)) (id : SessionId) (s : Session)
    (c : Command) : ¬Occurrence.Executes id ⟨p, act, q⟩ s c := by
  intro hexecutes
  obtain ⟨head, _, hact, -⟩ := hexecutes.played hstep
  exact hplay id head hact

theorem not_arms (hplay : ∀ id head, act ≠ .run (.play id head)) :
    ¬Occurrence.Arms flag ⟨p, act, q⟩ := by
  rintro ⟨id, s, c, hexecutes, -⟩
  exact not_executes hstep hplay id s c hexecutes

theorem not_clears (hplay : ∀ id head, act ≠ .run (.play id head))
    (hdisarm : act ≠ .serve .disarmAll true) : ¬Occurrence.Clears ⟨p, act, q⟩ := by
  rintro (⟨id, s, c, hexecutes, -⟩ | hact)
  · exact not_executes hstep hplay id s c hexecutes
  · exact hdisarm hact

theorem turns_of_idle (hplay : ∀ id head, act ≠ .run (.play id head))
    (hdisarm : act ≠ .serve .disarmAll true)
    (hrelease : (p.policy.flag flag).armed = true → ¬Occurrence.Releases flag ⟨p, act, q⟩)
    (hafter : (p.actPolicy act).flag flag = p.policy.flag flag) :
    Occurrence.Turns flag ⟨p, act, q⟩ := by
  refine .kept (not_arms hstep hplay)
    (fun harmed => ⟨not_clears hstep hplay hdisarm, hrelease harmed⟩) ?_
  show q.policy.flag flag = p.policy.flag flag
  rw [hstep.policy, hafter]

theorem turns_of_disarmAll (hact : act = .serve .disarmAll true) (flag : AutoFlag) :
    Occurrence.Turns flag ⟨p, act, q⟩ := by
  have hplay : ∀ id head, act ≠ .run (.play id head) := by
    intro id head hrun
    rw [hact] at hrun
    cases hrun
  refine turns_of_clears (not_arms hstep hplay) (.inr hact) ?_
  show q.policy.flag flag = (p.policy.flag flag).disarm
  rw [hstep.policy, hact]
  exact p.policy.flag_disarmAll flag

theorem turns_of_release {ticket : Ticket} {command : String}
    (hact : act = .run (.release ticket command)) (flag : AutoFlag) : Occurrence.Turns flag ⟨p, act, q⟩ := by
  have hplay : ∀ id head, act ≠ .run (.play id head) := by
    intro id head hrun
    rw [hact] at hrun
    cases hrun
  have hevents : Occurrence.events ⟨p, act, q⟩ =
      if p.policy.honours ticket then [.sent ⟨command, .queue, none⟩] else [] := by
    subst hact
    exact hstep.events_release
  have hafter : (p.actPolicy act).flag flag =
      if p.policy.honours ticket = true ∧ ticket.flag = flag then (p.policy.flag flag).disarm
      else p.policy.flag flag := by
    rw [hact]
    exact p.policy.flag_release ticket flag
  by_cases hboth : p.policy.honours ticket = true ∧ ticket.flag = flag
  · obtain ⟨hhonours, rfl⟩ := hboth
    rw [if_pos ⟨hhonours, rfl⟩, ← hstep.policy] at hafter
    rw [if_pos hhonours] at hevents
    have harmed : (p.policy.flag ticket.flag).armed = true := by
      unfold Policy.honours at hhonours
      exact (Bool.and_eq_true_iff.1 hhonours).1
    refine .cleared (not_arms hstep hplay) (.inr ⟨ticket.generation, command, hact, ?_⟩) harmed hafter
    rw [hevents]
    exact List.mem_singleton_self _
  · rw [if_neg hboth] at hafter
    refine turns_of_idle hstep hplay (by rw [hact]; simp) (fun _ => ?_) hafter
    rintro ⟨generation, command', hact', hsent⟩
    cases hact.symm.trans hact'
    rw [hevents] at hsent
    split at hsent
    · next hhonours => exact hboth ⟨hhonours, rfl⟩
    · cases hsent

theorem turns_of_play {head : Playhead} (hact : act = .run (.play id head))
    (hs : p.session? id = some s) (hflag : s.cancelled = true ↔ s.status = .cancelled)
    (flag : AutoFlag) : Occurrence.Turns flag ⟨p, act, q⟩ := by
  have hevents : Occurrence.events ⟨p, act, q⟩ = (head.step p.surroundings s).events id := by
    subst hact
    exact hstep.events_play hs
  have hafter : q.policy = (head.step p.surroundings s).effects.foldl (Effect.onPolicy id) p.policy := by
    rw [hstep.policy, hact]
    simp only [actPolicy, taskPolicy, hs]
  have hreleases : ¬Occurrence.Releases flag ⟨p, act, q⟩ := by
    rintro ⟨_, _, hrelease, -⟩
    cases hact.symm.trans hrelease
  have hsame {i : Nat} {c : Command} (hcommand : s.program.commands[i]? = some c)
      (hexecuted : ∀ j,
        .reached id (.executed j) ∈ (head.step p.surroundings s).events id ↔ j = i)
      {id' : SessionId} {s' : Session} {c' : Command}
      (hexecutes : Occurrence.Executes id' ⟨p, act, q⟩ s' c') : s' = s ∧ c' = c := by
    obtain ⟨hs', j, hcommand', hmem⟩ := hexecutes.of_play hstep hact hs
    rw [(hexecuted j).1 hmem, hcommand] at hcommand'
    exact ⟨hs', (Option.some.inj hcommand').symm⟩
  cases head.step_rules p.surroundings s id hflag p.policy with
  | none hquiet hpolicy =>
    have hnever {id' : SessionId} {s' : Session} {c' : Command} :
        ¬Occurrence.Executes id' ⟨p, act, q⟩ s' c' := by
      intro hexecutes
      obtain ⟨-, i, -, hexecuted⟩ := hexecutes.of_play hstep hact hs
      exact hquiet i hexecuted
    refine .kept ?_ (fun _ => ⟨?_, hreleases⟩) ?_
    · rintro ⟨id', s', c', hexecutes, -⟩
      exact hnever hexecutes
    · rintro (⟨id', s', c', hexecutes, -⟩ | hdisarm)
      · exact hnever hexecutes
      · cases hact.symm.trans hdisarm
    · show q.policy.flag flag = p.policy.flag flag
      rw [hafter, hpolicy]
  | @executed i c hcommand hexecuted hnext hback hpolicy =>
    have hflagAfter : q.policy.flag flag = if c.directive.flag? = some flag then
        (p.policy.flag flag).arm id else p.policy.flag flag := by
      rw [hafter, hpolicy, flag_onPolicy]
    by_cases harms : c.directive.flag? = some flag
    · rw [if_pos harms] at hflagAfter
      refine .armed ⟨id, s, c, ⟨hs, i, ?_, hcommand⟩, harms⟩ hact hs hnext hflagAfter
      rw [hevents]
      exact (hexecuted i).2 rfl
    · rw [if_neg harms] at hflagAfter
      refine .kept ?_ (fun _ => ⟨?_, hreleases⟩) hflagAfter
      · rintro ⟨id', s', c', hexecutes, harms'⟩
        rw [(hsame hcommand hexecuted hexecutes).2] at harms'
        exact harms harms'
      · rintro (⟨id', s', c', hexecutes, hback'⟩ | hdisarm)
        · obtain ⟨rfl, rfl⟩ := hsame hcommand hexecuted hexecutes
          exact hback hback'
        · cases hact.symm.trans hdisarm
  | @wentBack i c hcommand hexecuted hnext hback hpolicy =>
    refine turns_of_clears ?_ (.inl ⟨id, s, c, ⟨hs, i, ?_, hcommand⟩, hback⟩) ?_
    · rintro ⟨id', s', c', hexecutes, harms⟩
      rw [(hsame hcommand hexecuted hexecutes).2, hback.1] at harms
      cases harms
    · rw [hevents]
      exact (hexecuted i).2 rfl
    · show q.policy.flag flag = (p.policy.flag flag).disarm
      rw [hafter, hpolicy, Policy.flag_disarmAll]

end Turns

theorem Run.turns (run : Run punctual settings history p) (hstep : Step punctual p act q)
    (hhost : Occurrence.armedFor? flag ⟨p, act, q⟩ = none) : Occurrence.Turns flag ⟨p, act, q⟩ := by
  cases act with
  | pass time =>
    refine turns_of_idle hstep (by simp) (by simp) (fun _ => ?_) rfl
    rintro ⟨_, _, hact, -⟩
    cases hact
  | serve request granted =>
    have hreleases : ¬Occurrence.Releases flag ⟨p, .serve request granted, q⟩ := by
      rintro ⟨_, _, hact, -⟩
      cases hact
    cases request with
    | arm id other =>
      have hne : flag ≠ other := by
        rintro rfl
        simp [Occurrence.armedFor?] at hhost
      exact turns_of_idle hstep (by simp) (by simp) (fun _ => hreleases)
        (Policy.flag_setFlag_of_ne p.policy _ hne)
    | disarmAll =>
      have hgranted : granted = true := by
        cases hstep
        rfl
      rw [hgranted] at hstep ⊢
      exact turns_of_disarmAll hstep rfl flag
    | _ =>
      refine turns_of_idle hstep (by simp) (by simp) (fun _ => hreleases) ?_
      cases flag <;> rfl
  | run task =>
    cases task with
    | release ticket command => exact turns_of_release hstep rfl flag
    | play id head =>
      obtain ⟨solo, hshows, -, hsolo⟩ := run.apart_of_play hstep
      exact turns_of_play hstep rfl hshows.session hsolo.cancelled_iff flag
    | pad id payload left | countdown id epoch command =>
      refine turns_of_idle hstep (by simp) (by simp) (fun _ => ?_) rfl
      rintro ⟨_, _, hact, -⟩
      cases hact

/-! ## Generations -/

/-- In no step did the host arm a flag by itself. -/
def ArmedByScripts (history : List Occurrence) : Prop := ∀ o ∈ history, o.armedByHost = false

instance (history : List Occurrence) : Decidable (ArmedByScripts history) :=
  inferInstanceAs (Decidable (∀ o ∈ history, o.armedByHost = false))

/-- A flag that stays as it is, and nothing happens that would change it if it is armed. -/
structure Occurrence.Keeps (flag : AutoFlag) (o : Occurrence) : Prop where
  after : o.after.policy.flag flag = o.before.policy.flag flag
  arms : ¬o.Arms flag
  clears : (o.before.policy.flag flag).armed = true → ¬o.Clears ∧ ¬o.Releases flag

theorem Occurrence.Turns.generation (h : o.Turns flag) :
    (o.before.policy.flag flag).generation ≤ (o.after.policy.flag flag).generation ∧
      ((o.after.policy.flag flag).generation = (o.before.policy.flag flag).generation →
        o.Keeps flag) := by
  cases h with
  | kept harms hclears hafter =>
    have hsame : (o.after.policy.flag flag).generation = (o.before.policy.flag flag).generation := by
      rw [hafter]
    exact ⟨Nat.le_of_eq hsame.symm, fun _ => ⟨hafter, harms, hclears⟩⟩
  | armed harms hact hs hnext hafter =>
    have hgrows : (o.after.policy.flag flag).generation =
        (o.before.policy.flag flag).generation + 1 := by
      rw [hafter]
      rfl
    exact ⟨by omega, fun heq => by omega⟩
  | cleared harms hby hbefore hafter =>
    have hgrows : (o.after.policy.flag flag).generation =
        (o.before.policy.flag flag).generation + 1 := by
      rw [hafter, FlagState.disarm, if_pos hbefore]
    exact ⟨by omega, fun heq => by omega⟩

/-- Generations only grow. If a flag is still in the generation that it was in after some step, it was
left alone since then. -/
theorem Run.generation (run : Run punctual settings (later ++ o :: earlier) p)
    (hhost : ArmedByScripts later) (flag : AutoFlag) :
    (o.after.policy.flag flag).generation ≤ (p.policy.flag flag).generation ∧
      ((p.policy.flag flag).generation = (o.after.policy.flag flag).generation →
        p.policy.flag flag = o.after.policy.flag flag ∧
          ∀ o' ∈ later, o'.before.policy.flag flag = o.after.policy.flag flag ∧ o'.Keeps flag) := by
  induction later generalizing p with
  | nil =>
    cases run with
    | step run hstep =>
      refine ⟨Nat.le_refl _, fun _ => ⟨rfl, ?_⟩⟩
      intro o' ho'
      cases ho'
  | cons o' later ih =>
    cases run with
    | @step _ before _ act run hstep =>
      have hlater : ArmedByScripts later := fun o ho => hhost o (List.mem_cons_of_mem _ ho)
      obtain ⟨hle, hsame⟩ := ih run hlater
      have hown := armedFor?_eq_none (hhost _ List.mem_cons_self) flag
      have hturns := run.turns hstep hown
      obtain ⟨hgrows, hkeeps⟩ := hturns.generation
      simp only at hgrows hkeeps
      refine ⟨Nat.le_trans hle hgrows, fun heq => ?_⟩
      have hbefore : (before.policy.flag flag).generation =
          (o.after.policy.flag flag).generation := by omega
      obtain ⟨hflag, hall⟩ := hsame hbefore
      have hkept := hkeeps (by omega)
      refine ⟨hkept.after.trans hflag, ?_⟩
      intro o'' ho''
      rcases List.mem_cons.1 ho'' with rfl | hmem
      · exact ⟨hflag, hkept⟩
      · exact hall o'' hmem

end Playback

end Choreo
