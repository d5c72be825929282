import Choreo.Proofs.Playback.Journal

/-!
# The outcomes of a step of a playhead

A step of a playhead ends in one of a few ways. `Playhead.step_outcome` lists all of them, together
with what the playhead has found and what becomes of its session, so that nothing that is proved of
playheads has to look into the step again.
-/

namespace Choreo

/-- What is sent to the host when a session executes a command, in this order. -/
def Command.envelopes (host : HostCommands) (id : SessionId) (c : Command) : List Envelope :=
  match c.directive with
  | .dispatch => [⟨c.text, .queue, some id⟩]
  | .animationCancel =>
    host.animationCancel.map (⟨·, .noQueue, some id⟩) ++ [⟨c.text, .queue, some id⟩]
  | .busy decorated =>
    ⟨host.busyOn, .queue, some id⟩ ::
      if decorated then host.decorations.map (⟨·, .noQueue, some id⟩) else []
  | .mare => [⟨host.mareOff, .queue, some id⟩]
  | _ => []

def Program.goesBack (p : Program) (ignoreLooping : Bool) (c : Command) : Prop :=
  c.directive = .loop ∧ 1 < p.commands.length ∧ ignoreLooping = false

namespace Session

variable {s t : Session} {c : Command} {v : Surroundings} {id : SessionId} {i : Nat}

/-- The position of the command to play next, a seek being gone after. -/
def target (s : Session) : Nat := s.pendingSeek.getD s.index

theorem applySeek_eq (s : Session) :
    s.applySeek =
      { s with
        pendingSeek := none
        index := s.target
        region := if s.pendingSeek.isSome then none else s.region } := by
  unfold applySeek target
  cases hseek : s.pendingSeek with
  | none => cases s; cases hseek; rfl
  | some target => rfl

theorem eq_of_stopped? {allowed : Bool} (hstop : s.stopped? allowed = some t) :
    ∃ status cancelled, t = { s with status, cancelled } := by
  unfold stopped? at hstop
  split at hstop
  · exact ⟨s.status, s.cancelled, (Option.some.inj hstop).symm⟩
  · split at hstop
    · cases hstop
    · obtain ⟨cancelled, hcancel, -⟩ := s.cancel?_getD
      rw [hcancel, Option.some.injEq] at hstop
      exact ⟨.cancelled, cancelled, hstop.symm⟩

theorem arrive_fst (s : Session) (i : Nat) (c : Command) (now : Instant) :
    ∃ regionTime countdown, (s.arrive i c now).1 =
      { s with
        index := i
        current := some i
        commandTime := s.commandTime.restart c.wait now
        region := some c.region
        regionTime
        countdown } := by
  unfold arrive enter
  by_cases hregion : s.region = some c.region
  · refine ⟨s.regionTime, s.countdown, ?_⟩
    simp [hregion]
  · simp only [hregion, if_false, if_true]
    generalize s.regionTime.restart _ now = regionTime
    unfold countdownAtEntry
    simp only
    split
    · exact ⟨regionTime, s.countdown, rfl⟩
    · exact ⟨regionTime, none, rfl⟩
    · split
      · exact ⟨regionTime, s.countdown, rfl⟩
      · split
        · split <;> exact ⟨regionTime, s.countdown, rfl⟩
        · exact ⟨regionTime, s.countdown, rfl⟩

theorem countdownAtEntry_events (s t : Session) (c : Command) (id : SessionId) :
    (s.countdownAtEntry c).2.filterMap (Effect.event? id t) = [] := by
  unfold countdownAtEntry
  split
  · rfl
  · rfl
  · split
    · rfl
    · split
      · split <;> rfl
      · rfl

theorem arrive_events (s t : Session) (i : Nat) (c : Command) (now : Instant) (id : SessionId) :
    (s.arrive i c now).2.filterMap (Effect.event? id t) =
      if s.region = some c.region then [] else [.reached id (.entered c.region)] := by
  unfold arrive enter
  by_cases hregion : s.region = some c.region
  · simp [hregion]
  · simp only [hregion, if_false, if_true, List.filterMap_cons, Effect.event?,
      countdownAtEntry_events]

theorem landing_events (s t : Session) (id : SessionId) :
    s.landing.filterMap (Effect.event? id t) =
      s.pendingSeek.toList.map fun target => .reached id (.sought target) := by
  unfold landing
  cases s.pendingSeek <;> rfl

theorem perform_fst (s : Session) (settings : Settings) (c : Command) :
    ∃ countdown, (s.perform settings c).1 =
      { s with
        countdown
        pingOffset :=
          if c.directive = .ping then settings.playback.autopingTime else s.pingOffset } := by
  unfold perform
  cases hdirective : c.directive with
  | countdown mode => exact ⟨some mode, rfl⟩
  | _ => exact ⟨s.countdown, rfl⟩

theorem perform_events (s : Session) (hlive : t.status ≠ .cancelled) (settings : Settings)
    (c : Command) (id : SessionId) :
    (s.perform settings c).2.filterMap (Effect.event? id t) =
      (c.envelopes settings.host id).map .sent := by
  have hsend (command : String) (mode : DispatchMode) :
      Effect.event? id t (.send command mode) = some (.sent ⟨command, mode, some id⟩) :=
    if_neg hlive
  have hsends (commands : List String) (mode : DispatchMode) :
      (commands.map (Effect.send · mode)).filterMap (Effect.event? id t) =
        commands.map fun command => .sent ⟨command, mode, some id⟩ := by
    induction commands with
    | nil => rfl
    | cons command commands ih => rw [List.map_cons, List.filterMap_cons, hsend, ih, List.map_cons]
  have harm (flag : AutoFlag) : Effect.event? id t (.arm flag) = none := rfl
  unfold perform Command.envelopes
  cases c.directive with
  | dispatch => simp [hsend]
  | animationCancel => simp [hsend, hsends, Function.comp_def]
  | busy decorated => cases decorated <;> simp [hsend, hsends, harm, Function.comp_def]
  | mare => simp [hsend, harm]
  | _ => rfl

def execute (s : Session) (v : Surroundings) (i : Nat) (c : Command) : Session × List Effect :=
  let (t, arrival) := s.applySeek.arrive i c v.now
  let (u, deeds) := t.perform v.settings c
  (u, s.landing ++ arrival ++ .reach (.executed i) :: deeds)

theorem execute_fst (s : Session) (v : Surroundings) (i : Nat) (c : Command) :
    ∃ regionTime countdown, (s.execute v i c).1 =
      { s with
        pendingSeek := none
        index := i
        current := some i
        commandTime := s.commandTime.restart c.wait v.now
        region := some c.region
        regionTime
        countdown
        pingOffset :=
          if c.directive = .ping then v.settings.playback.autopingTime else s.pingOffset } := by
  obtain ⟨regionTime, countdown, harrive⟩ := s.applySeek.arrive_fst i c v.now
  obtain ⟨countdown', hperform⟩ := (s.applySeek.arrive i c v.now).1.perform_fst v.settings c
  refine ⟨regionTime, countdown', ?_⟩
  simp only [execute]
  rw [hperform, harrive, applySeek_eq]

theorem execute_program (s : Session) (v : Surroundings) (i : Nat) (c : Command) :
    (s.execute v i c).1.program = s.program := by
  obtain ⟨_, _, h⟩ := s.execute_fst v i c
  rw [h]

theorem execute_status (s : Session) (v : Surroundings) (i : Nat) (c : Command) :
    (s.execute v i c).1.status = s.status := by
  obtain ⟨_, _, h⟩ := s.execute_fst v i c
  rw [h]

theorem execute_restart_status (s : Session) (v : Surroundings) (i : Nat) (c : Command) :
    ((s.execute v i c).1.restart v.now).status = s.status := s.execute_status v i c

theorem execute_advance_status (s : Session) (v : Surroundings) (i : Nat) (c : Command) :
    (s.execute v i c).1.advance.status = s.status := s.execute_status v i c

theorem execute_cancelled (s : Session) (v : Surroundings) (i : Nat) (c : Command) :
    (s.execute v i c).1.cancelled = s.cancelled := by
  obtain ⟨_, _, h⟩ := s.execute_fst v i c
  rw [h]

theorem execute_index (s : Session) (v : Surroundings) (i : Nat) (c : Command) :
    (s.execute v i c).1.index = i := by
  obtain ⟨_, _, h⟩ := s.execute_fst v i c
  rw [h]

theorem execute_pendingSeek (s : Session) (v : Surroundings) (i : Nat) (c : Command) :
    (s.execute v i c).1.pendingSeek = none := by
  obtain ⟨_, _, h⟩ := s.execute_fst v i c
  rw [h]

theorem execute_pingOffset (s : Session) (v : Surroundings) (i : Nat) (c : Command) :
    (s.execute v i c).1.pingOffset =
      if c.directive = .ping then v.settings.playback.autopingTime else s.pingOffset := by
  obtain ⟨_, _, h⟩ := s.execute_fst v i c
  rw [h]

def arrivals (s : Session) (id : SessionId) (c : Command) : List Event :=
  (s.pendingSeek.toList.map fun target => .reached id (.sought target)) ++
    if s.applySeek.region = some c.region then [] else [.reached id (.entered c.region)]

theorem execute_events (s : Session) (hlive : t.status ≠ .cancelled) (v : Surroundings) (i : Nat)
    (c : Command) (id : SessionId) :
    (s.execute v i c).2.filterMap (Effect.event? id t) =
      s.arrivals id c ++
        .reached id (.executed i) :: (c.envelopes v.settings.host id).map .sent := by
  have hexecuted : Effect.event? id t (.reach (.executed i)) = some (.reached id (.executed i)) :=
    rfl
  simp only [execute, arrivals, List.filterMap_append, landing_events, arrive_events,
    List.filterMap_cons, hexecuted, perform_events _ hlive]

/-! What is written does not depend on how playing goes on after the command. -/

theorem wentBack_events (s : Session) (hlive : s.status ≠ .cancelled) (v : Surroundings) (i : Nat)
    (c : Command) (id : SessionId) (next : Next) :
    Move.events id ⟨(s.execute v i c).1.restart v.now, (s.execute v i c).2 ++ [.disarmAll], next⟩ =
      s.arrivals id c ++
        .reached id (.executed i) :: (c.envelopes v.settings.host id).map .sent := by
  have hafter : ((s.execute v i c).1.restart v.now).status ≠ .cancelled := by
    rw [s.execute_restart_status v i c]
    exact hlive
  have hdisarm : [Effect.disarmAll].filterMap
      (Effect.event? id ((s.execute v i c).1.restart v.now)) = [] := rfl
  rw [Move.events, List.filterMap_append, execute_events s hafter, hdisarm, List.append_nil]

theorem wentOn_events (s : Session) (hlive : s.status ≠ .cancelled) (v : Surroundings) (i : Nat)
    (c : Command) (id : SessionId) (next : Next) :
    Move.events id ⟨(s.execute v i c).1.advance, (s.execute v i c).2, next⟩ =
      s.arrivals id c ++
        .reached id (.executed i) :: (c.envelopes v.settings.host id).map .sent := by
  have hafter : (s.execute v i c).1.advance.status ≠ .cancelled := by
    rw [s.execute_advance_status v i c]
    exact hlive
  exact execute_events s hafter v i c id

theorem held_events (s : Session) (hlive : s.status ≠ .cancelled) (v : Surroundings) (i : Nat)
    (c : Command) (id : SessionId) (next : Next) :
    Move.events id ⟨{ (s.execute v i c).1 with pingOffset := .zero }, (s.execute v i c).2, next⟩ =
      s.arrivals id c ++
        .reached id (.executed i) :: (c.envelopes v.settings.host id).map .sent := by
  have hafter : ({ (s.execute v i c).1 with pingOffset := .zero } : Session).status ≠
      .cancelled := by
    rw [s.execute_status v i c]
    exact hlive
  exact execute_events s hafter v i c id

theorem execute_eq_of_loop (s : Session) (v : Surroundings) (i : Nat) (hc : c.directive = .loop) :
    s.execute v i c =
      ((s.applySeek.arrive i c v.now).1,
        s.landing ++ (s.applySeek.arrive i c v.now).2 ++ [.reach (.executed i)]) := by
  simp [execute, perform, hc]

end Session

namespace Playhead

variable {h : Playhead} {v : Surroundings} {s : Session}

/-- How a playhead goes on after its budget was charged with a wait. -/
def waiting (h : Playhead) (v : Surroundings) : Next :=
  if 0 < h.budget then .sleep (h.nap v.tick) { h with stage := .wait }
  else .yield { h with stage := .pass }

/-- The playhead as it looks around during a wait, its budget being up to date. -/
def awake (h : Playhead) (v : Surroundings) : Playhead :=
  if h.stage = .wait then h.settle v.now else { h with lastCheck := v.now }

inductive Outcome (h : Playhead) (v : Surroundings) (s : Session) : Move → Prop where
  | refused (hstage : h.stage = .opening) (hbegin : s.begin? v.now = none) :
      Outcome h v s (finish s)
  | began {t : Session} (hstage : h.stage = .opening) (hbegin : s.begin? v.now = some t) :
      Outcome h v s
        ⟨t, [.reach .began], .again { h with lastCheck := v.now, stage := .turn }⟩
  | stopped {t : Session} (hstage : h.stage = .turn ∨ h.stage = .wait ∨ h.stage = .waitRest)
      (hstop : s.stopped? v.allowed = some t) : Outcome h v s (finish t)
  | resting (hstage : h.stage = .turn) (hstop : s.stopped? v.allowed = none)
      (hpaused : s.status = .paused) :
      Outcome h v s ⟨s, [], .sleep v.tick { h with stage := .rest }⟩
  | ranOut (hstage : h.stage = .turn) (hstop : s.stopped? v.allowed = none)
      (hplaying : s.status ≠ .paused) (hcommand : s.program.commands[s.target]? = none) :
      Outcome h v s ⟨s.applySeek.finish, s.landing ++ [.reach .ended], .ended⟩
  | wentBack {c : Command} (hstage : h.stage = .turn) (hstop : s.stopped? v.allowed = none)
      (hplaying : s.status ≠ .paused) (hcommand : s.program.commands[s.target]? = some c)
      (hback : s.program.goesBack v.ignoreLooping c) :
      Outcome h v s
        ⟨(s.execute v s.target c).1.restart v.now, (s.execute v s.target c).2 ++ [.disarmAll],
          .again { h.land v.now s with stage := .turn }⟩
  | wentOn {c : Command} (hstage : h.stage = .turn) (hstop : s.stopped? v.allowed = none)
      (hplaying : s.status ≠ .paused) (hcommand : s.program.commands[s.target]? = some c)
      (hback : ¬s.program.goesBack v.ignoreLooping c) (hskips : c.directive.skipsWait = true) :
      Outcome h v s
        ⟨(s.execute v s.target c).1.advance, (s.execute v s.target c).2,
          .again { h.land v.now s with stage := .turn }⟩
  | held {c : Command} (hstage : h.stage = .turn) (hstop : s.stopped? v.allowed = none)
      (hplaying : s.status ≠ .paused) (hcommand : s.program.commands[s.target]? = some c)
      (hskips : c.directive.skipsWait = false) :
      Outcome h v s
        ⟨{ (s.execute v s.target c).1 with pingOffset := .zero }, (s.execute v s.target c).2,
          ((h.land v.now s).charge (c.wait - s.pingOffset)).waiting v⟩
  | rested (hstage : h.stage = .rest) :
      Outcome h v s ⟨s, [], .again { h with lastCheck := v.now, stage := .turn }⟩
  | cut (hstage : h.stage = .wait ∨ h.stage = .waitRest) (hstop : s.stopped? v.allowed = none)
      (hseek : s.pendingSeek.isSome) :
      Outcome h v s ⟨s, [], .again { h.awake v with stage := .turn }⟩
  | suspended (hstage : h.stage = .wait ∨ h.stage = .waitRest)
      (hstop : s.stopped? v.allowed = none) (hseek : s.pendingSeek = none)
      (hpaused : s.status = .paused) :
      Outcome h v s ⟨s, [], .sleep v.tick { h.awake v with stage := .waitRest }⟩
  | waited (hstage : h.stage = .wait ∨ h.stage = .waitRest)
      (hstop : s.stopped? v.allowed = none) (hseek : s.pendingSeek = none)
      (hplaying : s.status ≠ .paused) (hbudget : 0 < (h.awake v).budget) :
      Outcome h v s ⟨s, [], .sleep ((h.awake v).nap v.tick) { h.awake v with stage := .wait }⟩
  | done (hstage : h.stage = .wait ∨ h.stage = .waitRest)
      (hstop : s.stopped? v.allowed = none) (hseek : s.pendingSeek = none)
      (hplaying : s.status ≠ .paused) (hbudget : (h.awake v).budget ≤ 0) :
      Outcome h v s ⟨s.advance, [], .again { h.awake v with stage := .turn }⟩
  | passed (hstage : h.stage = .pass) :
      Outcome h v s ⟨s.advance, [], .again { h with stage := .turn }⟩

theorem look_outcome (hstage : h.stage = .wait ∨ h.stage = .waitRest) :
    Outcome h v s ((h.awake v).look v s) := by
  unfold look
  cases hstop : s.stopped? v.allowed with
  | some t => exact .stopped (.inr hstage) hstop
  | none =>
    simp only
    cases hseek : s.pendingSeek with
    | some target => exact .cut hstage hstop (by simp [hseek])
    | none =>
      simp only [Option.isSome_none, Bool.false_eq_true, if_false]
      by_cases hpaused : s.status = .paused
      · rw [if_pos hpaused]
        exact .suspended hstage hstop hseek hpaused
      · rw [if_neg hpaused]
        by_cases hbudget : 0 < (h.awake v).budget
        · rw [if_pos hbudget]
          exact .waited hstage hstop hseek hpaused hbudget
        · rw [if_neg hbudget]
          exact .done hstage hstop hseek hpaused (by omega)

section Playing

variable {t : Session} {i : Nat} {c : Command}

theorem arrive_program (t : Session) (i : Nat) (c : Command) (now : Instant) :
    (t.arrive i c now).1.program = t.program := by
  obtain ⟨_, _, harrive⟩ := t.arrive_fst i c now
  rw [harrive]

theorem play_of_goesBack (hback : t.program.goesBack v.ignoreLooping c) :
    h.play v t i c =
      ⟨(t.arrive i c v.now).1.restart v.now,
        (t.arrive i c v.now).2 ++ [.reach (.executed i), .disarmAll],
        .again { h with stage := .turn }⟩ := by
  simp only [play, arrive_program, Bool.not_eq_true']
  exact if_pos hback

theorem play_of_skipsWait (hback : ¬t.program.goesBack v.ignoreLooping c)
    (hskips : c.directive.skipsWait = true) :
    h.play v t i c =
      ⟨((t.arrive i c v.now).1.perform v.settings c).1.advance,
        (t.arrive i c v.now).2 ++
          .reach (.executed i) :: ((t.arrive i c v.now).1.perform v.settings c).2,
        .again { h with stage := .turn }⟩ := by
  simp only [play, arrive_program, Bool.not_eq_true', hskips]
  exact if_neg hback

theorem play_of_not_skipsWait (hskips : c.directive.skipsWait = false) :
    h.play v t i c =
      ⟨{ ((t.arrive i c v.now).1.perform v.settings c).1 with pingOffset := .zero },
        (t.arrive i c v.now).2 ++
          .reach (.executed i) :: ((t.arrive i c v.now).1.perform v.settings c).2,
        (h.charge (c.wait - t.pingOffset)).waiting v⟩ := by
  have hloop : c.directive ≠ .loop := by
    intro hloop
    rw [hloop] at hskips
    cases hskips
  have hping : c.directive ≠ .ping := by
    intro hping
    rw [hping] at hskips
    cases hskips
  have hoffset : ((t.arrive i c v.now).1.perform v.settings c).1.pingOffset = t.pingOffset := by
    obtain ⟨_, _, harrive⟩ := t.arrive_fst i c v.now
    obtain ⟨_, hperform⟩ := (t.arrive i c v.now).1.perform_fst v.settings c
    rw [hperform, harrive, if_neg hping]
  simp only [play, hloop, false_and, if_false, hskips, Bool.false_eq_true, hoffset, beginWait,
    waiting]
  split <;> rfl

end Playing

theorem turn_outcome (hstage : h.stage = .turn) : Outcome h v s (h.turn v s) := by
  have happly := s.applySeek_eq
  have hprogram : s.applySeek.program = s.program := by rw [happly]
  have hoffset : s.applySeek.pingOffset = s.pingOffset := by rw [happly]
  have hindex : s.applySeek.index = s.target := by rw [happly]
  unfold turn
  cases hstop : s.stopped? v.allowed with
  | some t => exact .stopped (.inl hstage) hstop
  | none =>
    simp only
    by_cases hpaused : s.status = .paused
    · rw [if_pos hpaused]
      exact .resting hstage hstop hpaused
    · rw [if_neg hpaused, hprogram, hindex]
      cases hcommand : s.program.commands[s.target]? with
      | none => exact .ranOut hstage hstop hpaused hcommand
      | some c =>
        simp only
        by_cases hback : s.program.goesBack v.ignoreLooping c
        · have hwentBack := Outcome.wentBack hstage hstop hpaused hcommand hback
          rw [s.execute_eq_of_loop v s.target hback.1] at hwentBack
          rw [play_of_goesBack (by rw [hprogram]; exact hback)]
          simpa using hwentBack
        · cases hskips : c.directive.skipsWait with
          | true =>
            have hwentOn := Outcome.wentOn hstage hstop hpaused hcommand hback hskips
            rw [play_of_skipsWait (by rw [hprogram]; exact hback) hskips, ← List.append_assoc]
            exact hwentOn
          | false =>
            have hheld := Outcome.held (h := h) hstage hstop hpaused hcommand hskips
            rw [play_of_not_skipsWait hskips, hoffset, ← List.append_assoc]
            exact hheld

theorem step_outcome (h : Playhead) (v : Surroundings) (s : Session) :
    Outcome h v s (h.step v s) := by
  unfold step
  cases hstage : h.stage with
  | opening =>
    simp only
    cases hbegin : s.begin? v.now with
    | none => exact .refused hstage hbegin
    | some t => exact .began hstage hbegin
  | turn => exact turn_outcome hstage
  | rest => exact .rested hstage
  | wait =>
    have hlook := look_outcome (v := v) (s := s) (.inl hstage)
    rwa [awake, if_pos hstage] at hlook
  | waitRest =>
    have hlook := look_outcome (v := v) (s := s) (.inr hstage)
    rwa [awake, if_neg (by rw [hstage]; decide)] at hlook
  | pass => exact .passed hstage

end Playhead

end Choreo
