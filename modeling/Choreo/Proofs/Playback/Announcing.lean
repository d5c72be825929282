import Choreo.Proofs.Playback.Flags
import Choreo.Proofs.Playback.Regions

/-!
# Which regions are announced

The end of a region is announced by a countdown if the region is entered through its first command in a
mode of countdowns, is long enough, and is not the last one of its kind. A playhead plans the countdown
as it enters the region, and plans no other.
-/

namespace Choreo

/-! ## Which regions are announced -/

/-- The end of a region is announced so many seconds before it, if the region is entered through a
command in a mode of countdowns. -/
structure Program.Announces (program : Program) (mode : Option Countdown) (i : Nat) (c : Command)
    (region : Region) (seconds : Nat) : Prop where
  mode : mode = some .start ∧ seconds = 5 ∨ mode = some .pulse ∧ seconds = 6
  first : ∀ j < i, ∀ d, program.commands[j]? = some d → d.region ≠ c.region
  eligible : region.named = false ∧ region.unheaded = false
  long : Duration.ofSeconds 9 < region.wait
  later : ∃ k later, c.region < k ∧ program.regions[k]? = some later ∧
    later.named = false ∧ later.unheaded = false

def Region.untilCountdown (region : Region) (seconds : Nat) : Duration :=
  region.wait - (.ofSeconds seconds - .ofMillis 20)

def Region.countdownAt (region : Region) (clock : Nat) (host : HostCommands) (id : SessionId)
    (epoch seconds : Nat) : Sleeper :=
  ⟨clock + (region.untilCountdown seconds).sleepMillis,
    .countdown id epoch (host.countdown ++ " " ++ Nat.repr seconds)⟩

namespace Countdown

theorem eligible_iff (region : Region) :
    region.eligible = true ↔ region.named = false ∧ region.unheaded = false := by
  simp [Region.eligible]

theorem any_drop_iff (regions : List Region) (index : Nat) :
    (regions.drop (index + 1)).any Region.eligible = true ↔
      ∃ (k : Nat) (later : Region), index < k ∧ regions[k]? = some later ∧
        later.named = false ∧ later.unheaded = false := by
  rw [List.any_eq_true]
  constructor
  · rintro ⟨later, hmem, heligible⟩
    obtain ⟨k, hk⟩ := List.getElem?_of_mem hmem
    rw [List.getElem?_drop] at hk
    exact ⟨index + 1 + k, later, by omega, hk, (eligible_iff later).1 heligible⟩
  · rintro ⟨k, later, hlt, hk, heligible⟩
    refine ⟨later, ?_, (eligible_iff later).2 heligible⟩
    apply List.mem_of_getElem? (i := k - (index + 1))
    rw [List.getElem?_drop]
    rwa [Nat.add_sub_cancel' hlt]

end Countdown

namespace Session

variable {s : Session} {c : Command} {v : Surroundings} {id : SessionId} {i seconds : Nat}
variable {region : Region}

theorem countdownAtEntry_of_announces (hshaped : s.program.Shaped)
    (hcommand : s.program.commands[i]? = some c)
    (hregion : s.program.regions[c.region]? = some region)
    (h : s.program.Announces s.countdown i c region seconds) :
    (s.countdownAtEntry c).2 = [.countdown (.ofSeconds seconds) (region.untilCountdown seconds)] := by
  have hline : c.line = region.startLine := (hshaped.line_eq_startLine_iff hcommand hregion).2 h.first
  have heligible := (Countdown.eligible_iff region).2 h.eligible
  have hlater := (Countdown.any_drop_iff s.program.regions c.region).2 h.later
  have hlong : Countdown.minRegion < region.wait := h.long
  have hoffset (mode : Countdown) (hlead : mode.lead? = some (.ofSeconds seconds)) :
      Countdown.offset? s.program.regions c.region mode = some (region.untilCountdown seconds) := by
    simp only [Countdown.offset?, hlead, hregion, heligible, hlong, hlater, and_self, if_true]
    rfl
  unfold countdownAtEntry
  rcases h.mode with ⟨hmode, rfl⟩ | ⟨hmode, rfl⟩
  · have hlead : Countdown.start.lead? = some (.ofSeconds 5) := rfl
    simp only [hmode, hregion, if_pos hline, hlead, hoffset _ hlead]
  · have hlead : Countdown.pulse.lead? = some (.ofSeconds 6) := rfl
    simp only [hmode, hregion, if_pos hline, hlead, hoffset _ hlead]

theorem countdownAtEntry_of_not_announces (hshaped : s.program.Shaped)
    (hcommand : s.program.commands[i]? = some c)
    (hregion : s.program.regions[c.region]? = some region)
    (h : ∀ seconds, ¬s.program.Announces s.countdown i c region seconds) :
    (s.countdownAtEntry c).2 = [] := by
  have hnone (mode : Countdown) (seconds : Nat) (hline : c.line = region.startLine)
      (hmode : s.countdown = some .start ∧ seconds = 5 ∨ s.countdown = some .pulse ∧ seconds = 6) :
      Countdown.offset? s.program.regions c.region mode = none := by
    unfold Countdown.offset?
    cases mode.lead? with
    | none => rfl
    | some lead =>
      simp only [hregion]
      refine if_neg ?_
      rintro ⟨heligible, hlong, hlater⟩
      exact h seconds
        { mode := hmode
          first := (hshaped.line_eq_startLine_iff hcommand hregion).1 hline
          eligible := (Countdown.eligible_iff region).1 heligible
          long := hlong
          later := (Countdown.any_drop_iff s.program.regions c.region).1 hlater }
  unfold countdownAtEntry
  cases hmode : s.countdown with
  | none => rfl
  | some mode =>
    cases mode with
    | off => rfl
    | start =>
      simp only [hregion]
      split
      · next hline => rw [hnone .start 5 hline (.inl ⟨hmode, rfl⟩)]; rfl
      · rfl
    | pulse =>
      simp only [hregion]
      split
      · next hline => rw [hnone .pulse 6 hline (.inr ⟨hmode, rfl⟩)]; rfl
      · rfl

/-! ## What a command plans -/

variable {clock epoch : Nat} {host : HostCommands}

theorem sleepers_landing (s : Session) (clock : Nat) (host : HostCommands) (id : SessionId)
    (epoch : Nat) : s.landing.filterMap (Effect.sleeper? clock host id epoch) = [] := by
  unfold landing
  cases s.pendingSeek <;> rfl

theorem tasks_landing (s : Session) (id : SessionId) :
    s.landing.filterMap (Effect.task? id) = [] := by
  unfold landing
  cases s.pendingSeek <;> rfl

theorem sleepers_perform (s : Session) (settings : Settings) (c : Command) (clock : Nat)
    (host : HostCommands) (id : SessionId) (epoch : Nat) :
    (s.perform settings c).2.filterMap (Effect.sleeper? clock host id epoch) = [] := by
  have hsends (commands : List String) (mode : DispatchMode) :
      (commands.map (Effect.send · mode)).filterMap (Effect.sleeper? clock host id epoch) = [] := by
    have hnone : Effect.sleeper? clock host id epoch ∘ (Effect.send · mode) = fun _ => none := rfl
    rw [List.filterMap_map, hnone, List.filterMap_none]
  unfold perform
  cases hdirective : c.directive with
  | animationCancel =>
    simp only [List.filterMap_append, hsends]
    rfl
  | busy decorated =>
    simp only [List.filterMap_cons, Effect.sleeper?, hsends]
  | _ => rfl

theorem exists_countdownAtEntry (hregion : s.region ≠ some c.region) (i : Nat) (now : Instant) :
    ∃ t : Session, t.program = s.program ∧ t.countdown = s.countdown ∧
      (s.arrive i c now).2 = .reach (.entered c.region) :: (t.countdownAtEntry c).2 := by
  unfold arrive enter
  simp only [hregion, if_false, if_true]
  refine ⟨_, ?_, ?_, rfl⟩ <;> rfl

theorem sleepers_execute_of_inside (hregion : s.applySeek.region = some c.region)
    (v : Surroundings) (i : Nat) (clock : Nat) (host : HostCommands) (id : SessionId) (epoch : Nat) :
    (s.execute v i c).2.filterMap (Effect.sleeper? clock host id epoch) = [] := by
  have harrive : (s.applySeek.arrive i c v.now).2 = [] := by
    unfold arrive enter
    simp [hregion]
  simp only [execute, harrive, List.filterMap_append, List.filterMap_cons, sleepers_landing,
    sleepers_perform]
  rfl

/-- Outside its region, what a command plans depends on the program and the mode alone. -/
theorem exists_sleepers_execute (hregion : s.applySeek.region ≠ some c.region) (v : Surroundings)
    (i : Nat) :
    ∃ t : Session, t.program = s.program ∧ t.countdown = s.countdown ∧ ∀ clock host id epoch,
      (s.execute v i c).2.filterMap (Effect.sleeper? clock host id epoch) =
        (t.countdownAtEntry c).2.filterMap (Effect.sleeper? clock host id epoch) := by
  obtain ⟨t, hprogram, hcountdown, harrive⟩ := exists_countdownAtEntry hregion i v.now
  rw [s.applySeek_eq] at hprogram hcountdown
  refine ⟨t, hprogram, hcountdown, fun clock host id epoch => ?_⟩
  simp only [execute, harrive, List.filterMap_append, List.filterMap_cons, sleepers_landing,
    sleepers_perform, Effect.sleeper?, List.nil_append, List.append_nil]

theorem sleepers_execute_of_announces (hshaped : s.program.Shaped)
    (hcommand : s.program.commands[i]? = some c)
    (hregion : s.program.regions[c.region]? = some region)
    (hentered : s.applySeek.region ≠ some c.region)
    (h : s.program.Announces s.countdown i c region seconds) (v : Surroundings) (clock : Nat)
    (host : HostCommands) (id : SessionId) (epoch : Nat) :
    (s.execute v i c).2.filterMap (Effect.sleeper? clock host id epoch) =
      [region.countdownAt clock host id epoch seconds] := by
  obtain ⟨t, hprogram, hcountdown, hsleepers⟩ := exists_sleepers_execute hentered v i
  rw [← hprogram] at hshaped hcommand hregion h
  rw [← hcountdown] at h
  have hseconds : (Duration.ofSeconds seconds).seconds = seconds := by
    rcases h.mode with ⟨-, rfl⟩ | ⟨-, rfl⟩ <;> rfl
  rw [hsleepers, countdownAtEntry_of_announces hshaped hcommand hregion h]
  simp only [List.filterMap_cons, List.filterMap_nil, Effect.sleeper?, HostCommands.countdownFor,
    hseconds, Region.countdownAt]

theorem sleepers_execute_of_not_announces (hshaped : s.program.Shaped)
    (hcommand : s.program.commands[i]? = some c)
    (hregion : s.program.regions[c.region]? = some region)
    (hentered : s.applySeek.region ≠ some c.region)
    (h : ∀ seconds, ¬s.program.Announces s.countdown i c region seconds) (v : Surroundings)
    (clock : Nat) (host : HostCommands) (id : SessionId) (epoch : Nat) :
    (s.execute v i c).2.filterMap (Effect.sleeper? clock host id epoch) = [] := by
  obtain ⟨t, hprogram, hcountdown, hsleepers⟩ := exists_sleepers_execute hentered v i
  rw [← hprogram] at hshaped hcommand hregion h
  rw [← hcountdown] at h
  rw [hsleepers, countdownAtEntry_of_not_announces hshaped hcommand hregion h]
  rfl

theorem mem_entered_iff (s : Session) (id : SessionId) (c : Command) (i : Nat)
    (envelopes : List Envelope) (id' : SessionId) (r : Nat) :
    .reached id' (.entered r) ∈
        s.arrivals id c ++ .reached id (.executed i) :: envelopes.map Event.sent ↔
      id' = id ∧ r = c.region ∧ s.applySeek.region ≠ some c.region := by
  unfold arrivals
  by_cases hregion : s.applySeek.region = some c.region
  · simp [hregion]
  · simp [hregion]

theorem mem_sought_iff (s : Session) (id : SessionId) (c : Command) (i : Nat)
    (envelopes : List Envelope) :
    (∃ target, .reached id (.sought target) ∈
        s.arrivals id c ++ .reached id (.executed i) :: envelopes.map Event.sent) ↔
      s.pendingSeek.isSome := by
  unfold arrivals
  by_cases hregion : s.applySeek.region = some c.region
  · simp [hregion, Option.isSome_iff_exists]
  · simp [hregion, Option.isSome_iff_exists]

end Session

namespace Playhead

inductive Plans (id : SessionId) (v : Surroundings) (s : Session) (move : Move) : Prop where
  | none
      (hevents : ∀ event ∈ move.events id, event = .reached id .began ∨ event = .reached id .ended ∨
        ∃ target, event = .reached id (.sought target))
      (hsleepers : ∀ clock host epoch,
        move.effects.filterMap (Effect.sleeper? clock host id epoch) = [])
      (htasks : move.effects.filterMap (Effect.task? id) = [])
  | executed {i : Nat} {c : Command} (hcommand : s.program.commands[i]? = some c)
      (hevents : move.events id = s.arrivals id c ++
        .reached id (.executed i) :: (c.envelopes v.settings.host id).map .sent)
      (hcountdown : move.session.countdown = (s.execute v i c).1.countdown)
      (hsleepers : ∀ clock host epoch,
        move.effects.filterMap (Effect.sleeper? clock host id epoch) =
          (s.execute v i c).2.filterMap (Effect.sleeper? clock host id epoch))
      (htasks : move.effects.filterMap (Effect.task? id) =
        (s.execute v i c).2.filterMap (Effect.task? id))

theorem step_plans (h : Playhead) (v : Surroundings) (s : Session)
    (hflag : s.cancelled = true ↔ s.status = .cancelled) (id : SessionId) :
    Plans id v s (h.step v s) := by
  have houtcome := h.step_outcome v s
  generalize h.step v s = move at houtcome
  cases houtcome with
  | @wentBack c hstage hstop hplaying hcommand hback =>
    refine .executed hcommand (s.wentBack_events (live_of_stopped? hflag hstop) v _ c id _) rfl ?_ ?_
    · intro clock host epoch
      rw [List.filterMap_append]
      exact List.append_nil _
    · rw [List.filterMap_append]
      exact List.append_nil _
  | @wentOn c hstage hstop hplaying hcommand hback hskips =>
    exact .executed hcommand (s.wentOn_events (live_of_stopped? hflag hstop) v _ c id _) rfl
      (fun _ _ _ => rfl) rfl
  | @held c hstage hstop hplaying hcommand hskips =>
    exact .executed hcommand (s.held_events (live_of_stopped? hflag hstop) v _ c id _) rfl
      (fun _ _ _ => rfl) rfl
  | ranOut hstage hstop hplaying hcommand =>
    refine .none (fun event hevent => ?_) (fun clock host epoch => ?_) ?_
    · rw [Move.events, List.filterMap_append, s.landing_events] at hevent
      rcases List.mem_append.1 hevent with hsought | hended
      · obtain ⟨target, -, rfl⟩ := List.mem_map.1 hsought
        exact .inr (.inr ⟨target, rfl⟩)
      · exact .inr (.inl (List.mem_singleton.1 hended))
    · rw [List.filterMap_append, s.sleepers_landing]
      rfl
    · rw [List.filterMap_append, s.tasks_landing]
      rfl
  | refused | stopped =>
    exact .none (fun event hevent => .inr (.inl (List.mem_singleton.1 hevent))) (fun _ _ _ => rfl) rfl
  | began =>
    exact .none (fun event hevent => .inl (List.mem_singleton.1 hevent)) (fun _ _ _ => rfl) rfl
  | _ => exact .none (fun event hevent => by cases hevent) (fun _ _ _ => rfl) rfl

end Playhead

end Choreo
