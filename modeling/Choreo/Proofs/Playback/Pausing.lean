import Choreo.Proofs.Playback.Punctuality
import Choreo.Proofs.Playback.Shared
import Mathlib.Algebra.GroupWithZero.Nat

/-!
# What pauses cost

A playhead notices a pause, and the end of one, only when it wakes up. Part of a pause may be counted
as played, and part of what is played after a pause as paused. Each pause is paid for once in each
way, and never with more than a tick.
-/

namespace Choreo

/-! ## Ticks are whole milliseconds -/

namespace Duration

/-- Sleeping for as long as the clock can tell takes no more than the time given, if that is in
milliseconds. -/
theorem sleepMillis_ofMillis_le (n : Nat) :
    (ofMillis n).sleepMillis * 1000000 ≤ (ofMillis n).nanos := by
  have hnanos : (ofMillis n).nanos = min (n * 1000000) maxNanos := rfl
  unfold sleepMillis
  split
  · next hnear =>
    unfold seconds farthestSecond at hnear
    unfold ceilMillis
    unfold maxNanos at hnanos
    omega
  · next hfar =>
    unfold seconds farthestSecond at hfar
    unfold thirtyYears
    omega

end Duration

namespace Playhead

theorem sleepMillis_nap_le (h : Playhead) (n : Nat) :
    (h.nap (.ofMillis n)).sleepMillis * 1000000 ≤ (Duration.ofMillis n).nanos := by
  have htick : (Duration.ofMillis n).nanos = min (n * 1000000) maxNanos := rfl
  have hnap : (h.nap (.ofMillis n)).nanos ≤ (Duration.ofMillis n).nanos ∧
      (h.nap (.ofMillis n)).nanos ≤ 18446744073709551615 := by
    simp only [nap, Duration.nanos_ofNanos]
    omega
  rw [sleepMillis_nap]
  unfold Duration.ceilMillis
  unfold maxNanos at htick
  omega

end Playhead

/-! ## What a session has been through -/

namespace Beat

def pauses (beat : Beat) : Bool :=
  match beat.happening with
  | .paused => true
  | _ => false

def resumes (beat : Beat) : Bool :=
  match beat.happening with
  | .resumed => true
  | _ => false

def begun? (beat : Beat) : Option Nat :=
  match beat.happening with
  | .noted (.reached _ .began) => some beat.time
  | _ => none

end Beat

def begunAt? (story : List Beat) : Option Nat := story.findSome? Beat.begun?

structure Tally where
  begun : Nat
  /-- The nanoseconds for which commands were to be held. -/
  owed : Nat
  paused : Nat
  pauses : Nat
  resumes : Nat

def tally (program : Program) (settings : Settings) (story : List Beat) (paused : Nat) : Tally where
  begun := (begunAt? story).getD 0
  owed := (account program settings story).owed
  paused := paused
  pauses := story.countP Beat.pauses
  resumes := story.countP Beat.resumes

def Event.begins : Event → Bool
  | .reached _ .began => true
  | _ => false

/-- The tally after a playhead wrote something in a step, with its account then. -/
def Tally.after (t : Tally) (a : Account) (time : Nat) (events : List Event) : Tally :=
  { t with begun := if events.any Event.begins then time else t.begun, owed := a.owed }

def Tally.pause (t : Tally) : Tally := { t with pauses := t.pauses + 1 }

def Tally.resume (t : Tally) : Tally := { t with resumes := t.resumes + 1 }

section Notes

variable {program : Program} {settings : Settings} {story : List Beat}
variable {events : List Event} {time : Nat} {ignoreLooping : Bool}

theorem begunAt?_notes (events : List Event) (time : Nat) (ignoreLooping : Bool)
    (story : List Beat) :
    begunAt? ((events.map (Beat.note time ignoreLooping)).reverse ++ story) =
      if events.any Event.begins then some time else begunAt? story := by
  induction events generalizing story with
  | nil => rfl
  | cons event events ih =>
    rw [Beat.notes_cons, ih, List.any_cons]
    cases hrest : events.any Event.begins with
    | true => simp
    | false =>
      have hhead : begunAt? (Beat.note time ignoreLooping event :: story) =
          ((Beat.note time ignoreLooping event).begun?).or (begunAt? story) := by
        rw [begunAt?, List.findSome?_cons]
        cases (Beat.note time ignoreLooping event).begun? <;> rfl
      rw [hhead]
      cases event with
      | sent envelope => rfl
      | reached i milestone => cases milestone <;> rfl

theorem countP_notes {count : Beat → Bool}
    (hcount : ∀ event, count (.note time ignoreLooping event) = false)
    (events : List Event) (story : List Beat) :
    ((events.map (Beat.note time ignoreLooping)).reverse ++ story).countP count =
      story.countP count := by
  have hnone : (events.map (Beat.note time ignoreLooping)).countP count = 0 := by
    rw [List.countP_eq_zero]
    intro beat hbeat
    obtain ⟨event, -, rfl⟩ := List.mem_map.1 hbeat
    rw [hcount]
    decide
  rw [List.countP_append, List.countP_reverse, hnone, Nat.zero_add]

theorem tally_notes (events : List Event) (time : Nat) (ignoreLooping : Bool) (story : List Beat)
    (paused : Nat) :
    tally program settings ((events.map (Beat.note time ignoreLooping)).reverse ++ story) paused =
      (tally program settings story paused).after
        (events.foldl (Account.note program settings time) (account program settings story))
        time events := by
  have hpauses := @countP_notes time ignoreLooping Beat.pauses (fun _ => rfl) events story
  have hresumes := @countP_notes time ignoreLooping Beat.resumes (fun _ => rfl) events story
  unfold tally Tally.after
  rw [begunAt?_notes, account_notes, hpauses, hresumes]
  split <;> rfl

theorem tally_paused (time : Nat) (ignoreLooping : Bool) (story : List Beat) (paused : Nat) :
    tally program settings (⟨time, ignoreLooping, .paused⟩ :: story) paused =
      (tally program settings story paused).pause := by
  simp only [tally, Tally.pause, List.countP_cons]
  rfl

theorem tally_resumed (time : Nat) (ignoreLooping : Bool) (story : List Beat) (paused : Nat) :
    tally program settings (⟨time, ignoreLooping, .resumed⟩ :: story) paused =
      (tally program settings story paused).resume := by
  simp only [tally, Tally.resume, List.countP_cons]
  rfl

theorem begins_execute (s : Session) (id : SessionId) (c : Command) (i : Nat)
    (envelopes : List Envelope) :
    (s.arrivals id c ++ .reached id (.executed i) :: envelopes.map Event.sent).any Event.begins =
      false := by
  have hsent : (envelopes.map Event.sent).any Event.begins = false := by
    rw [List.any_map, List.any_eq_false]
    intro envelope _
    exact Bool.false_ne_true
  have harrivals : (s.arrivals id c).any Event.begins = false := by
    rw [List.any_eq_false]
    intro event hevent
    rcases List.mem_append.1 hevent with hsought | hentered
    · obtain ⟨target, -, rfl⟩ := List.mem_map.1 hsought
      exact Bool.false_ne_true
    · split at hentered
      · cases hentered
      · cases List.mem_singleton.1 hentered
        exact Bool.false_ne_true
  rw [List.any_append, List.any_cons, harrivals, hsent]
  rfl

end Notes

/-! ## The pace of a playhead -/

namespace Tally

variable {t : Tally} {τ : Nat}

/-- Some milliseconds have passed, which count if the session was paused. -/
def wait (t : Tally) (status : Status) (millis : Nat) : Tally :=
  { t with paused := t.paused + if status = .paused then millis else 0 }

theorem wait_zero (t : Tally) (status : Status) : t.wait status 0 = t := by
  unfold wait
  split <;> rfl

def pauseCost (t : Tally) (τ : Nat) : Int := t.pauses * τ

def resumeCost (t : Tally) (τ : Nat) : Int := t.resumes * τ

theorem pauseCost_pause (t : Tally) (τ : Nat) : t.pause.pauseCost τ = t.pauseCost τ + τ := by
  simp only [pauseCost, pause, Int.natCast_add, Int.add_mul, Int.natCast_one, Int.one_mul]

theorem resumeCost_resume (t : Tally) (τ : Nat) : t.resume.resumeCost τ = t.resumeCost τ + τ := by
  simp only [resumeCost, resume, Int.natCast_add, Int.add_mul, Int.natCast_one, Int.one_mul]

end Tally

namespace Playhead

variable {h head : Playhead} {v : Surroundings} {s s' : Session} {a : Account} {t : Tally}
variable {clock due τ : Nat} {c : Command}

/-- The nanoseconds that the playhead did not count as played, less those of pauses. -/
def excess (h : Playhead) (t : Tally) : Int :=
  h.lastCheck + h.budget - t.begun * 1000000 - t.owed - t.paused * 1000000

def since (h : Playhead) (clock : Nat) : Int := clock * 1000000 - h.lastCheck

theorem excess_wait (h : Playhead) (t : Tally) (status : Status) (millis : Nat) :
    h.excess (t.wait status millis) =
      h.excess t - if status = .paused then (millis * 1000000 : Int) else 0 := by
  unfold excess Tally.wait
  split
  · simp only [Int.natCast_add, Int.add_mul]
    omega
  · simp only [Nat.add_zero, Int.sub_zero]

theorem since_add (h : Playhead) {clock clock' : Nat} (hle : clock ≤ clock') :
    h.since clock' = h.since clock + (clock' - clock : Nat) * 1000000 := by
  unfold since
  omega

def Naps (h : Playhead) (τ clock due : Nat) : Prop := 0 ≤ h.since clock ∧ h.since due ≤ τ

/-- No pause was counted as played for more than a tick, and nothing that was played after a pause as
paused for more than a tick. -/
def Balanced (h : Playhead) (τ : Nat) (t : Tally) : Prop :=
  -t.pauseCost τ ≤ h.excess t ∧ h.excess t ≤ t.resumeCost τ

/-- The time since the playhead went to sleep counts as played, though a pause may have come. -/
def Counts (h : Playhead) (τ : Nat) (s : Session) (t : Tally) (clock due : Nat) : Prop :=
  h.Naps τ clock due ∧ h.excess t ≤ t.resumeCost τ ∧
    (s.status ≠ .paused ∧ -t.pauseCost τ ≤ h.excess t ∨
      τ - t.pauseCost τ ≤ h.excess t + h.since clock)

/-- The time since the playhead went to sleep counts as paused, though the pause may be over. -/
def Skips (h : Playhead) (τ : Nat) (s : Session) (t : Tally) (clock due : Nat) : Prop :=
  h.Naps τ clock due ∧ -t.pauseCost τ ≤ h.excess t + h.since clock ∧
    (s.status = .paused ∧ h.excess t + h.since clock ≤ t.resumeCost τ ∨
      h.excess t ≤ t.resumeCost τ - τ)

/-- What is true at each stage. No time passes before the playhead goes on, unless it sleeps. -/
def Within (h : Playhead) (τ : Nat) (s : Session) (t : Tally) (clock due : Nat) : Prop :=
  match h.stage with
  | .opening => due ≤ clock ∧ t.pauses = 0 ∧ t.resumes = 0 ∧ t.paused = 0
  | .turn | .pass => due ≤ clock ∧ h.Balanced τ t
  | .wait => h.Counts τ s t clock due
  | .rest | .waitRest => h.Skips τ s t clock due

/-- What is true until the session has gone to the line that it was launched at. -/
def Fresh (h : Playhead) (t : Tally) : Prop :=
  (h.stage = .opening ∨ h.stage = .turn ∨ h.stage = .rest) ∧ h.budget = 0 ∧ t.owed = 0

structure Paced (h : Playhead) (τ : Nat) (s : Session) (t : Tally) (clock due : Nat) : Prop where
  counts : t.resumes + (if s.status = .paused then 1 else 0) ≤ t.pauses
  fresh : s.pendingSeek.isSome → h.Fresh t
  within : h.Within τ s t clock due

/-! ### Pauses and their ends -/

theorem Counts.pause (hcounts : h.Counts τ s t clock due) : h.Counts τ s' t.pause clock due := by
  obtain ⟨hnaps, hupper, hlower⟩ := hcounts
  have hcost := t.pauseCost_pause τ
  have hslept := hnaps.1
  have hexcess : h.excess t.pause = h.excess t := rfl
  refine ⟨hnaps, hupper, .inr ?_⟩
  rcases hlower with ⟨-, hlower⟩ | hlower <;> omega

theorem Counts.resume (hcounts : h.Counts τ s t clock due) (hpaused : s.status = .paused) :
    h.Counts τ s' t.resume clock due := by
  obtain ⟨hnaps, hupper, hlower⟩ := hcounts
  have hcost := t.resumeCost_resume τ
  have hexcess : h.excess t.resume = h.excess t := rfl
  rcases hlower with ⟨hplaying, -⟩ | hlower
  · exact absurd hpaused hplaying
  · exact ⟨hnaps, by omega, .inr hlower⟩

theorem Skips.pause (hskips : h.Skips τ s t clock due) (hplaying : s.status = .playing) :
    h.Skips τ s' t.pause clock due := by
  obtain ⟨hnaps, hlower, hupper⟩ := hskips
  have hcost := t.pauseCost_pause τ
  have hexcess : h.excess t.pause = h.excess t := rfl
  rcases hupper with ⟨hpaused, -⟩ | hupper
  · rw [hplaying] at hpaused
    cases hpaused
  · exact ⟨hnaps, by omega, .inr hupper⟩

theorem Skips.resume (hskips : h.Skips τ s t clock due) : h.Skips τ s' t.resume clock due := by
  obtain ⟨hnaps, hlower, hupper⟩ := hskips
  have hcost := t.resumeCost_resume τ
  have hslept := hnaps.1
  have hexcess : h.excess t.resume = h.excess t := rfl
  refine ⟨hnaps, hlower, .inr ?_⟩
  rcases hupper with ⟨-, hupper⟩ | hupper <;> omega

theorem Balanced.pause (hbalanced : h.Balanced τ t) : h.Balanced τ t.pause := by
  have hcost := t.pauseCost_pause τ
  have hexcess : h.excess t.pause = h.excess t := rfl
  obtain ⟨hlower, hupper⟩ := hbalanced
  exact ⟨by omega, hupper⟩

theorem Balanced.resume (hbalanced : h.Balanced τ t) : h.Balanced τ t.resume := by
  have hcost := t.resumeCost_resume τ
  have hexcess : h.excess t.resume = h.excess t := rfl
  obtain ⟨hlower, hupper⟩ := hbalanced
  exact ⟨hlower, by omega⟩

theorem Paced.pause (hpaced : h.Paced τ s t clock due) (hstage : h.stage ≠ .opening)
    (hplaying : s.status = .playing) (hpaused : s'.status = .paused)
    (hseek : s'.pendingSeek = s.pendingSeek) : h.Paced τ s' t.pause clock due := by
  obtain ⟨hcounts, hfresh, hwithin⟩ := hpaced
  refine ⟨?_, ?_, ?_⟩
  · rw [hplaying] at hcounts
    rw [if_pos hpaused]
    exact Nat.succ_le_succ hcounts
  · rw [hseek]
    exact hfresh
  · unfold Within at hwithin ⊢
    cases hst : h.stage with
    | opening => exact absurd hst hstage
    | turn | pass =>
      rw [hst] at hwithin
      exact ⟨hwithin.1, hwithin.2.pause⟩
    | wait =>
      rw [hst] at hwithin
      exact hwithin.pause
    | rest | waitRest =>
      rw [hst] at hwithin
      exact hwithin.pause hplaying

theorem Paced.resume (hpaced : h.Paced τ s t clock due) (hstage : h.stage ≠ .opening)
    (hpaused : s.status = .paused) (hplaying : s'.status = .playing)
    (hseek : s'.pendingSeek = s.pendingSeek) : h.Paced τ s' t.resume clock due := by
  obtain ⟨hcounts, hfresh, hwithin⟩ := hpaced
  refine ⟨?_, ?_, ?_⟩
  · rw [if_pos hpaused] at hcounts
    rw [hplaying]
    exact hcounts
  · rw [hseek]
    exact hfresh
  · unfold Within at hwithin ⊢
    cases hst : h.stage with
    | opening => exact absurd hst hstage
    | turn | pass =>
      rw [hst] at hwithin
      exact ⟨hwithin.1, hwithin.2.resume⟩
    | wait =>
      rw [hst] at hwithin
      exact hwithin.resume hpaused
    | rest | waitRest =>
      rw [hst] at hwithin
      exact hwithin.resume

/-! ### Time -/

section Passing

variable {clock' : Nat}

theorem Counts.pass (hcounts : h.Counts τ s t clock due) (hle : clock ≤ clock') :
    h.Counts τ s (t.wait s.status (clock' - clock)) clock' due := by
  obtain ⟨⟨hslept, hdue⟩, hupper, hlower⟩ := hcounts
  have hexcess := h.excess_wait t s.status (clock' - clock)
  have hsince := h.since_add hle
  have hcost : (t.wait s.status (clock' - clock)).pauseCost τ = t.pauseCost τ := rfl
  have hcost' : (t.wait s.status (clock' - clock)).resumeCost τ = t.resumeCost τ := rfl
  unfold Counts Naps
  rw [hcost, hcost', hsince]
  by_cases hpaused : s.status = .paused
  · rw [if_pos hpaused] at hexcess
    refine ⟨⟨by omega, hdue⟩, by omega, .inr ?_⟩
    rcases hlower with ⟨hplaying, -⟩ | hlower
    · exact absurd hpaused hplaying
    · omega
  · rw [if_neg hpaused] at hexcess
    refine ⟨⟨by omega, hdue⟩, by omega, ?_⟩
    rcases hlower with ⟨-, hlower⟩ | hlower
    · exact .inl ⟨hpaused, by omega⟩
    · exact .inr (by omega)

theorem Skips.pass (hskips : h.Skips τ s t clock due) (hle : clock ≤ clock') :
    h.Skips τ s (t.wait s.status (clock' - clock)) clock' due := by
  obtain ⟨⟨hslept, hdue⟩, hlower, hupper⟩ := hskips
  have hexcess := h.excess_wait t s.status (clock' - clock)
  have hsince := h.since_add hle
  have hcost : (t.wait s.status (clock' - clock)).pauseCost τ = t.pauseCost τ := rfl
  have hcost' : (t.wait s.status (clock' - clock)).resumeCost τ = t.resumeCost τ := rfl
  unfold Skips Naps
  rw [hcost, hcost', hsince]
  by_cases hpaused : s.status = .paused
  · rw [if_pos hpaused] at hexcess
    refine ⟨⟨by omega, hdue⟩, by omega, ?_⟩
    rcases hupper with ⟨-, hupper⟩ | hupper
    · exact .inl ⟨hpaused, by omega⟩
    · exact .inr (by omega)
  · rw [if_neg hpaused] at hexcess
    refine ⟨⟨by omega, hdue⟩, by omega, .inr ?_⟩
    rcases hupper with ⟨himpossible, -⟩ | hupper
    · exact absurd himpossible hpaused
    · omega

theorem Paced.pass (hpaced : h.Paced τ s t clock due) (hle : clock ≤ clock') (hdue : clock' ≤ due) :
    h.Paced τ s (t.wait s.status (clock' - clock)) clock' due := by
  obtain ⟨hcounts, hfresh, hwithin⟩ := hpaced
  refine ⟨hcounts, hfresh, ?_⟩
  have hnone (hlate : due ≤ clock) : t.wait s.status (clock' - clock) = t := by
    have hsame : clock' - clock = 0 := by omega
    rw [hsame, t.wait_zero]
  unfold Within at hwithin ⊢
  cases hst : h.stage with
  | opening =>
    rw [hst] at hwithin
    rw [hnone hwithin.1]
    exact ⟨Nat.le_trans hwithin.1 hle, hwithin.2⟩
  | turn | pass =>
    rw [hst] at hwithin
    rw [hnone hwithin.1]
    exact ⟨Nat.le_trans hwithin.1 hle, hwithin.2⟩
  | wait =>
    rw [hst] at hwithin
    exact hwithin.pass hle
  | rest | waitRest =>
    rw [hst] at hwithin
    exact hwithin.pass hle

end Passing

/-! ### Waking up -/

theorem Counts.awake (hcounts : h.Counts τ s t clock clock) (hstage : h.stage = .wait)
    (hnow : v.now = clock * 1000000) : (h.awake v).Balanced τ t := by
  obtain ⟨⟨hslept, hdue⟩, hupper, hlower⟩ := hcounts
  have hexcess : (h.awake v).excess t = h.excess t := by
    have hle : (h.lastCheck : Int) ≤ (clock * 1000000 : Nat) := by
      unfold since at hslept
      omega
    have hspent := settle_budget hle
    have hlast : (h.settle (clock * 1000000)).lastCheck = clock * 1000000 := rfl
    rw [Playhead.awake, if_pos hstage, hnow, excess, excess, hspent, hlast]
    omega
  unfold Balanced
  rw [hexcess]
  refine ⟨?_, hupper⟩
  rcases hlower with ⟨-, hlower⟩ | hlower <;> omega

theorem Skips.wake (hskips : h.Skips τ s t clock clock) (hnow : v.now = clock * 1000000) :
    { h with lastCheck := v.now }.Balanced τ t := by
  obtain ⟨⟨hslept, hdue⟩, hlower, hupper⟩ := hskips
  have hexcess : { h with lastCheck := v.now }.excess t = h.excess t + h.since clock := by
    unfold excess since
    rw [hnow]
    show ((clock * 1000000 : Nat) : Int) + h.budget - _ - _ - _ = _
    omega
  unfold Balanced
  rw [hexcess]
  refine ⟨hlower, ?_⟩
  rcases hupper with ⟨-, hupper⟩ | hupper <;> omega

theorem Within.awake (hwithin : h.Within τ s t clock clock)
    (hstage : h.stage = .wait ∨ h.stage = .waitRest) (hnow : v.now = clock * 1000000) :
    (h.awake v).Balanced τ t := by
  unfold Within at hwithin
  rcases hstage with hwait | hrest
  · rw [hwait] at hwithin
    exact hwithin.awake hwait hnow
  · rw [hrest] at hwithin
    have hskipped := hwithin.wake hnow
    rwa [Playhead.awake, if_neg (by rw [hrest]; decide)]

/-! ### Going to sleep -/

theorem Checked.naps (hcheck : h.Checked clock) {nap : Nat} (hnap : nap * 1000000 ≤ τ) :
    h.Naps τ clock (clock + nap) ∧ h.since clock = 0 := by
  unfold Checked at hcheck
  unfold Naps since
  omega

theorem Balanced.counts (hbalanced : h.Balanced τ t) (hcheck : h.Checked clock)
    (hplaying : s.status ≠ .paused) {nap : Nat} (hnap : nap * 1000000 ≤ τ) :
    h.Counts τ s t clock (clock + nap) :=
  ⟨(hcheck.naps hnap).1, hbalanced.2, .inl ⟨hplaying, hbalanced.1⟩⟩

theorem Balanced.skips (hbalanced : h.Balanced τ t) (hcheck : h.Checked clock)
    (hpaused : s.status = .paused) {nap : Nat} (hnap : nap * 1000000 ≤ τ) :
    h.Skips τ s t clock (clock + nap) := by
  obtain ⟨hnaps, hsince⟩ := hcheck.naps hnap
  refine ⟨hnaps, ?_, .inl ⟨hpaused, ?_⟩⟩
  · rw [hsince, Int.add_zero]
    exact hbalanced.1
  · rw [hsince, Int.add_zero]
    exact hbalanced.2

/-! ### A step -/

theorem Fresh.land (hcheck : h.Checked clock) (hfresh : s.pendingSeek.isSome → h.Fresh t)
    (hnow : v.now = clock * 1000000) : h.land v.now s = h := by
  unfold Playhead.land
  split
  · next hseek =>
    have hlast : v.now = h.lastCheck := by
      unfold Checked at hcheck
      rw [hnow]
      exact Int.ofNat_inj.1 (by omega)
    rw [hlast, ← (hfresh hseek).2.1]
  · rfl

theorem Fresh.owed (howed : t.owed = a.owed) (hfresh : s.pendingSeek.isSome → h.Fresh t) :
    (a.arrive clock s).owed = t.owed := by
  unfold Account.arrive
  split
  · next hseek => exact (hfresh hseek).2.2.symm
  · exact howed.symm

theorem after_nil (howed : t.owed = a.owed) (clock : Nat) : t.after a clock [] = t := by
  unfold Tally.after
  rw [← howed]
  rfl

theorem after_of_skipsWait (howed : t.owed = a.owed) (hfresh : s.pendingSeek.isSome → h.Fresh t)
    (hcommand : s.program.commands[s.target]? = some c) (hskips : c.directive.skipsWait = true)
    (settings : Settings) (id : SessionId) (envelopes : List Envelope) :
    t.after ((a.arrive clock s).charge s.program settings s.target) clock
      (s.arrivals id c ++ .reached id (.executed s.target) :: envelopes.map Event.sent) = t := by
  unfold Tally.after
  rw [begins_execute, Account.charge_of_skipsWait hcommand hskips, Fresh.owed howed hfresh]
  rfl

theorem after_of_not_skipsWait (howed : t.owed = a.owed)
    (hfresh : s.pendingSeek.isSome → h.Fresh t) (hping : s.pingOffset = a.ping)
    (hcommand : s.program.commands[s.target]? = some c) (hskips : c.directive.skipsWait = false)
    (settings : Settings) (id : SessionId) (envelopes : List Envelope) :
    t.after ((a.arrive clock s).charge s.program settings s.target) clock
        (s.arrivals id c ++ .reached id (.executed s.target) :: envelopes.map Event.sent) =
      { t with owed := t.owed + (c.wait - s.pingOffset).nanos } := by
  unfold Tally.after
  rw [begins_execute, Account.charge_of_not_skipsWait hcommand hskips, a.arrive_ping, ← hping]
  simp only [Fresh.owed howed hfresh]
  rfl

/-- Charging a wait leaves the excess as it is, because the wait is owed from now on. -/
theorem Balanced.charge (hbalanced : h.Balanced τ t) (hsettled : h.Settled) (wait : Duration) :
    (h.charge wait).Balanced τ { t with owed := t.owed + wait.nanos } := by
  have hbudget := charge_budget hsettled wait
  have hexcess : (h.charge wait).excess { t with owed := t.owed + wait.nanos } = h.excess t := by
    have hlast : (h.charge wait).lastCheck = h.lastCheck := rfl
    simp only [excess, hbudget, hlast, Int.natCast_add]
    omega
  unfold Balanced at hbalanced ⊢
  rw [hexcess]
  exact hbalanced

theorem Paced.of_within (hcounts : t.resumes + (if s.status = .paused then 1 else 0) ≤ t.pauses)
    (hseek : s.pendingSeek = none) (hwithin : h.Within τ s t clock due) :
    h.Paced τ s t clock due := by
  refine ⟨hcounts, fun hsome => ?_, hwithin⟩
  rw [hseek] at hsome
  cases hsome

theorem Paced.arrived (hpaced : h.Paced τ s t clock due)
    (hstage : h.stage = .wait ∨ h.stage = .waitRest ∨ h.stage = .pass) : s.pendingSeek = none := by
  by_contra hsome
  have hearly := (hpaced.fresh (Option.isSome_iff_ne_none.2 hsome)).1
  rcases hstage with hstage | hstage | hstage <;> simp [hstage] at hearly

theorem began_paced (hpaced : h.Paced τ s t clock clock) (hkeeps : h.Keeps s a clock)
    (hstage : h.stage = .opening) (hnow : v.now = clock * 1000000)
    (hbegin : s.begin? v.now = some s') (id : SessionId) :
    { h with lastCheck := v.now, stage := .turn }.Paced τ s'
      (t.after (Account.note s.program v.settings clock a (.reached id .began)) clock
        [Event.reached id .began])
      clock clock := by
  obtain ⟨hstopped, -, rfl⟩ := Session.eq_of_begin? hbegin
  obtain ⟨hcounts, -, hwithin⟩ := hpaced
  unfold Within at hwithin
  unfold Keeps at hkeeps
  simp only [hstage] at hwithin hkeeps
  obtain ⟨-, hpauses, hresumes, hpaused⟩ := hwithin
  have hexcess : { h with lastCheck := v.now, stage := .turn }.excess
      (t.after (Account.note s.program v.settings clock a (.reached id .began)) clock
        [Event.reached id .began]) = 0 := by
    simp only [excess, Tally.after, hpaused, hkeeps.1, hnow]
    show ((clock * 1000000 : Nat) : Int) + 0 - clock * 1000000 - (0 : Nat) - (0 : Nat) * 1000000 = 0
    omega
  have hcost : t.pauseCost τ = 0 := by simp [Tally.pauseCost, hpauses]
  have hcost' : t.resumeCost τ = 0 := by simp [Tally.resumeCost, hresumes]
  refine ⟨?_, fun _ => ⟨.inr (.inl rfl), hkeeps.1, rfl⟩, Nat.le_refl _, ?_, ?_⟩
  · rw [hstopped] at hcounts
    exact hcounts
  · show -t.pauseCost τ ≤ _
    rw [hcost]
    exact Int.le_of_eq hexcess.symm
  · show _ ≤ t.resumeCost τ
    rw [hcost']
    exact Int.le_of_eq hexcess

theorem executed_paced (hpaced : h.Paced τ s t clock clock) (hkeeps : h.Keeps s a clock)
    (howed : t.owed = a.owed) (hstage : h.stage = .turn) (hnow : v.now = clock * 1000000)
    (hcommand : s.program.commands[s.target]? = some c) (hskips : c.directive.skipsWait = true)
    (hstatus : s'.status = s.status) (hseek : s'.pendingSeek = none) (id : SessionId)
    (envelopes : List Envelope) :
    { h.land v.now s with stage := .turn }.Paced τ s'
      (t.after ((a.arrive clock s).charge s.program v.settings s.target) clock
        (s.arrivals id c ++ Event.reached id (.executed s.target) :: envelopes.map Event.sent))
      clock clock := by
  obtain ⟨hcounts, hfresh, hwithin⟩ := hpaced
  unfold Within at hwithin
  unfold Keeps at hkeeps
  simp only [hstage] at hwithin hkeeps
  rw [← hstatus] at hcounts
  rw [after_of_skipsWait howed hfresh hcommand hskips, Fresh.land hkeeps.1 hfresh hnow]
  exact .of_within hcounts hseek ⟨Nat.le_refl _, hwithin.2⟩

section Step

variable (hnow : v.now = clock * 1000000) (htick : ∃ n, v.tick = .ofMillis n)
  (hτ : v.tick.nanos ≤ τ)

include htick hτ

theorem sleepMillis_tick_le : v.tick.sleepMillis * 1000000 ≤ τ := by
  obtain ⟨n, hn⟩ := htick
  rw [hn] at hτ ⊢
  exact Nat.le_trans (Duration.sleepMillis_ofMillis_le n) hτ

theorem sleepMillis_nap_tick_le (h : Playhead) : (h.nap v.tick).sleepMillis * 1000000 ≤ τ := by
  obtain ⟨n, hn⟩ := htick
  rw [hn] at hτ ⊢
  exact Nat.le_trans (h.sleepMillis_nap_le n) hτ

theorem Balanced.waiting (hbalanced : h.Balanced τ t) (hcheck : h.Checked clock)
    (hplaying : s.status ≠ .paused) (hhead : (h.waiting v).head? = some head) :
    head.Within τ s t clock ((h.waiting v).due clock) := by
  unfold Playhead.waiting at hhead ⊢
  split at hhead
  · next hbudget =>
    rw [if_pos hbudget]
    cases hhead
    exact hbalanced.counts hcheck hplaying (sleepMillis_nap_tick_le htick hτ h)
  · next hbudget =>
    rw [if_neg hbudget]
    cases hhead
    exact ⟨Nat.le_refl _, hbalanced⟩

include hnow

theorem held_paced (hpaced : h.Paced τ s t clock clock) (htimed : h.Timed s a clock)
    (howed : t.owed = a.owed) (hstage : h.stage = .turn) (hplaying : s.status ≠ .paused)
    (hcommand : s.program.commands[s.target]? = some c) (hskips : c.directive.skipsWait = false)
    (hstatus : s'.status = s.status) (hseek : s'.pendingSeek = none) (id : SessionId)
    (envelopes : List Envelope)
    (hhead : (((h.land v.now s).charge (c.wait - s.pingOffset)).waiting v).head? = some head) :
    head.Paced τ s'
      (t.after ((a.arrive clock s).charge s.program v.settings s.target) clock
        (s.arrivals id c ++ Event.reached id (.executed s.target) :: envelopes.map Event.sent))
      clock ((((h.land v.now s).charge (c.wait - s.pingOffset)).waiting v).due clock) := by
  obtain ⟨hcounts, hfresh, hwithin⟩ := hpaced
  obtain ⟨hcheck, hsettled, -⟩ := htimed.keeps.land hstage hnow
  unfold Within at hwithin
  simp only [hstage] at hwithin
  have hkeeps := htimed.keeps
  unfold Keeps at hkeeps
  simp only [hstage] at hkeeps
  rw [Fresh.land hkeeps.1 hfresh hnow] at hcheck hsettled hhead ⊢
  have hcharged := hwithin.2.charge hsettled (c.wait - s.pingOffset)
  rw [← hstatus] at hplaying hcounts
  rw [after_of_not_skipsWait howed hfresh htimed.ping hcommand hskips]
  exact .of_within hcounts hseek (hcharged.waiting htick hτ hcheck hplaying hhead)

theorem step_paced (hpaced : h.Paced τ s t clock clock) (htimed : h.Timed s a clock)
    (howed : t.owed = a.owed) (hlive : s.status ≠ .cancelled) (id : SessionId)
    (hhead : (h.step v s).next.head? = some head) :
    head.Paced τ (h.step v s).session
        (t.after (((h.step v s).events id).foldl (Account.note s.program v.settings clock) a) clock
          ((h.step v s).events id))
        clock ((h.step v s).next.due clock) := by
  have hkeeps := htimed.keeps
  have hsleep := sleepMillis_tick_le htick hτ
  have houtcome := h.step_outcome v s
  generalize h.step v s = move at houtcome hhead
  cases houtcome with
  | refused | stopped | ranOut => cases hhead
  | began hstage hbegin =>
    cases hhead
    exact began_paced hpaced hkeeps hstage hnow hbegin id
  | resting hstage hstop hpaused =>
    cases hhead
    obtain ⟨hcounts, hfresh, hwithin⟩ := hpaced
    unfold Within at hwithin
    unfold Keeps at hkeeps
    simp only [hstage] at hwithin hkeeps
    refine (after_nil howed clock).symm ▸ ⟨hcounts, fun hseek => ?_, ?_⟩
    · exact ⟨.inr (.inr rfl), (hfresh hseek).2⟩
    · exact hwithin.2.skips hkeeps.1 hpaused hsleep
  | @wentBack c hstage hstop hplaying hcommand hback =>
    cases hhead
    have hskips : c.directive.skipsWait = true := by
      rw [hback.1]
      rfl
    rw [s.wentBack_events hlive, Account.foldl_execute]
    exact executed_paced hpaced hkeeps howed hstage hnow hcommand hskips
      (s.execute_restart_status v s.target c) (s.execute_pendingSeek v s.target c) id _
  | @wentOn c hstage hstop hplaying hcommand hback hskips =>
    cases hhead
    rw [s.wentOn_events hlive, Account.foldl_execute]
    exact executed_paced hpaced hkeeps howed hstage hnow hcommand hskips
      (s.execute_advance_status v s.target c) (s.execute_pendingSeek v s.target c) id _
  | @held c hstage hstop hplaying hcommand hskips =>
    have hstatus : ({ (s.execute v s.target c).1 with pingOffset := .zero } : Session).status =
        s.status := s.execute_status v s.target c
    rw [s.held_events hlive, Account.foldl_execute]
    exact held_paced hnow htick hτ hpaced htimed howed hstage hplaying hcommand hskips hstatus
      (s.execute_pendingSeek v s.target c) id _ hhead
  | rested hstage =>
    cases hhead
    obtain ⟨hcounts, hfresh, hwithin⟩ := hpaced
    unfold Within at hwithin
    simp only [hstage] at hwithin
    refine (after_nil howed clock).symm ▸ ⟨hcounts, fun hseek => ?_, Nat.le_refl _, ?_⟩
    · exact ⟨.inr (.inl rfl), (hfresh hseek).2⟩
    · exact hwithin.wake hnow
  | cut hstage hstop hseek =>
    rw [hpaced.arrived (hstage.imp_right .inl)] at hseek
    cases hseek
  | suspended hstage hstop hseek hpaused =>
    cases hhead
    obtain ⟨hchecked, -, -⟩ := hkeeps.awake hstage hnow
    have hbalanced := hpaced.within.awake hstage hnow
    exact (after_nil howed clock).symm ▸ .of_within hpaced.counts hseek
      (hbalanced.skips hchecked hpaused hsleep)
  | waited hstage hstop hseek hplaying hbudget =>
    cases hhead
    obtain ⟨hchecked, -, -⟩ := hkeeps.awake hstage hnow
    have hbalanced := hpaced.within.awake hstage hnow
    exact (after_nil howed clock).symm ▸ .of_within hpaced.counts hseek
      (hbalanced.counts hchecked hplaying (sleepMillis_nap_tick_le htick hτ _))
  | done hstage hstop hseek hplaying hbudget =>
    cases hhead
    have hbalanced := hpaced.within.awake hstage hnow
    exact (after_nil howed clock).symm ▸ .of_within hpaced.counts hseek
      ⟨Nat.le_refl _, hbalanced⟩
  | passed hstage =>
    cases hhead
    have hseek := hpaced.arrived (.inr (.inr hstage))
    have hwithin := hpaced.within
    unfold Within at hwithin
    simp only [hstage] at hwithin
    exact (after_nil howed clock).symm ▸ .of_within hpaced.counts hseek
      ⟨Nat.le_refl _, hwithin.2⟩

end Step

theorem events_of_cancelled (hstage : h.stage = .turn) (hset : s.cancelled = true)
    (v : Surroundings) (id : SessionId) : (h.step v s).events id = [.reached id .ended] := by
  have hstop : s.stopped? v.allowed = some s := if_pos hset
  rw [step, hstage]
  simp only [turn, hstop]
  rfl

theorem begins_of_opening (hstage : h.stage = .opening) (id : SessionId)
    (hnext : (h.step v s).next.head? = some head) :
    ((h.step v s).events id).any Event.begins = true := by
  rw [step, hstage] at hnext ⊢
  cases hbegin : s.begin? v.now with
  | none =>
    rw [hbegin] at hnext
    cases hnext
  | some t => rfl

end Playhead

/-! ## The run of a session -/

namespace Solo

variable {settings : Settings} {id : SessionId} {story : List Beat} {solo solo' : Solo} {τ : Nat}
variable {paused : Nat}

/-- What is true of a session, until it is cancelled, that was paused for some milliseconds. -/
def Paced (τ : Nat) (settings : Settings) (story : List Beat) (paused : Nat) (solo : Solo) : Prop :=
  solo.session.status ≠ .cancelled → ∀ head, solo.place.head? = some head →
    (head.stage ≠ .opening → (begunAt? story).isSome) ∧
      head.Paced τ solo.session (tally solo.session.program settings story paused) solo.clock
        (solo.place.due solo.clock)

theorem Paced.launched (τ : Nat) (settings : Settings) (clock : Nat) (ignoreLooping : Bool)
    (start : Start) (script : ScriptId) (lines : List String) :
    Paced τ settings [⟨clock, ignoreLooping, .launched start⟩] 0
      ⟨clock, start.prepare script lines, true, .ready { lastCheck := clock * 1000000 }⟩ := by
  intro _ head hhead
  cases hhead
  obtain ⟨pendingSeek, epoch, hprepare⟩ := start.prepare_eq script lines
  refine ⟨fun hopening => absurd rfl hopening, ?_, fun _ => ⟨.inl rfl, rfl, rfl⟩, ?_⟩
  · rw [hprepare]
    exact Nat.le_refl 0
  · exact ⟨Nat.le_refl clock, rfl, rfl, rfl⟩

theorem Paced.asked (h : Paced τ settings story paused solo) (hordered : Ordered settings id story solo)
    {happening : Happening} (hasked : solo.Asked happening solo') (ignoreLooping : Bool)
    (hseek : ∀ line, happening ≠ .sought line) :
    Paced τ settings (⟨solo.clock, ignoreLooping, happening⟩ :: story) paused solo' := by
  intro hlive head hhead
  cases hasked with
  | paused hactive hpause =>
    obtain ⟨hplaying, rfl⟩ := Session.eq_of_pause? hpause
    obtain ⟨hbegun, hpaced⟩ := h (by rw [hplaying]; decide) head hhead
    have hstage : head.stage ≠ .opening := by
      intro hopening
      have hstatus := hordered.opening head hhead hopening
      rw [hplaying] at hstatus
      simp at hstatus
    rw [tally_paused]
    exact ⟨hbegun, hpaced.pause hstage hplaying rfl rfl⟩
  | resumed hactive hresume =>
    obtain ⟨hpaused, rfl⟩ := Session.eq_of_resume? hresume
    obtain ⟨hbegun, hpaced⟩ := h (by rw [hpaused]; decide) head hhead
    have hstage : head.stage ≠ .opening := by
      intro hopening
      have hstatus := hordered.opening head hhead hopening
      rw [hpaused] at hstatus
      simp at hstatus
    rw [tally_resumed]
    exact ⟨hbegun, hpaced.resume hstage hpaused rfl rfl⟩
  | sought hactive hsought => exact absurd rfl (hseek _)
  | cancelled hactive =>
    obtain ⟨cancelled, hcancel, -⟩ := solo.session.cancel?_getD
    rw [hcancel] at hlive
    exact absurd rfl hlive

theorem Paced.played (h : Paced τ settings story paused solo) (htimed : Timed settings story solo)
    (hordered : Ordered settings id story solo)
    (hflag : solo.session.cancelled = true ↔ solo.session.status = .cancelled) {head : Playhead}
    {v : Surroundings} (hplace : solo.place = .ready head) (hnow : v.now = solo.now)
    (hsettings : v.settings = settings) (htick : ∃ n, v.tick = .ofMillis n)
    (hτ : v.tick.nanos ≤ τ) :
    Paced τ settings
      ((((head.step v solo.session).events id).map
        (Beat.note solo.clock v.ignoreLooping)).reverse ++ story) paused
      (solo.after (head.step v solo.session)) := by
  intro hlive head' hhead'
  have hhead := Place.head?_ready hplace
  have hdue := Place.due_ready hplace solo.clock
  have hbefore : solo.session.status ≠ .cancelled := by
    intro hcancelled
    have hplayed : Step True settings id solo _ _ := .played hplace hnow hsettings
    exact hlive (hplayed.cancelled_stays hcancelled)
  obtain ⟨hbegun, hpaced⟩ := h hbefore head hhead
  have hnext : (head.step v solo.session).next.head? = some head' :=
    ((head.step v solo.session).next.head?_place solo.clock).symm.trans hhead'
  have hprogram :=
    (head.step_progress id v solo.session hflag (hordered.opening head hhead)).keeps_program
  have htimed' := (htimed head hhead).2
  rw [hdue] at hpaced htimed'
  obtain ⟨hplaceDue, -⟩ := (head.step v solo.session).next.due_place solo.clock
  have hstep := Playhead.step_paced hnow htick hτ hpaced htimed' rfl hbefore id hnext
  rw [hsettings, ← tally_notes, ← hprogram, ← hplaceDue] at hstep
  refine ⟨fun _ => ?_, hstep⟩
  rw [begunAt?_notes]
  by_cases hopening : head.stage = .opening
  · rw [if_pos (Playhead.begins_of_opening hopening id hnext)]
    rfl
  · split
    · rfl
    · exact hbegun hopening

theorem Paced.passed (h : Paced τ settings story paused solo) (htimed : Timed settings story solo)
    {time : Nat} (htime : solo.place.OnTime time) :
    Paced τ settings story
      (paused + if solo.session.status = .paused then max solo.clock time - solo.clock else 0)
      { solo with clock := max solo.clock time, place := solo.place.wakeAt time } := by
  intro hlive head hhead
  rw [solo.place.head?_wakeAt time] at hhead
  obtain ⟨hbegun, hpaced⟩ := h hlive head hhead
  obtain ⟨hdue, hclock⟩ := solo.place.due_wakeAt (htimed head hhead).1 hhead htime
  have hpassed := hpaced.pass (Nat.le_max_left solo.clock time) hclock
  refine ⟨hbegun, ?_⟩
  show head.Paced τ solo.session _ (max solo.clock time)
    ((solo.place.wakeAt time).due (max solo.clock time))
  rw [hdue]
  exact hpassed

end Solo

/-! ## Every run -/

namespace Playback

variable {punctual : Prop} {settings : Settings} {history later earlier : List Occurrence}
variable {p q : Playback} {act : Act} {id : SessionId} {o : Occurrence} {solo solo' : Solo}
variable {τ : Nat}

def Occurrence.paused (id : SessionId) (o : Occurrence) : Nat :=
  if (o.before.session? id).map Session.status = some .paused then o.after.clock - o.before.clock
  else 0

def timePaused (id : SessionId) (history : List Occurrence) : Nat :=
  (history.map (Occurrence.paused id)).sum

def Occurrence.tick (id : SessionId) (o : Occurrence) : Nat :=
  match o.act with
  | .run (.play i _) => if i = id then o.before.policy.tick.nanos else 0
  | _ => 0

def longestTick (id : SessionId) : List Occurrence → Nat
  | [] => 0
  | o :: earlier => max (o.tick id) (longestTick id earlier)

theorem Shows.elapsed (h : p.Shows id solo) (h' : q.Shows id solo') :
    Occurrence.paused id ⟨p, act, q⟩ =
      if solo.session.status = .paused then solo'.clock - solo.clock else 0 := by
  unfold Occurrence.paused
  rw [h.session, h.clock, h'.clock]
  simp

theorem Run.paced_step (run : Run True settings history p)
    (hseek : Occurrence.seeks id ⟨p, act, q⟩ = false)
    (hτ : Occurrence.tick id ⟨p, act, q⟩ ≤ τ) (hshows : p.Shows id solo)
    {story : List Beat} {paused : Nat} (hrun : Solo.Run True settings id story solo)
    (hpaced : solo.Paced τ settings story paused)
    (hseen : Occurrence.Seen True id ⟨p, act, q⟩ solo solo') (hshows' : q.Shows id solo') :
    solo'.Paced τ settings ((Occurrence.beats id ⟨p, act, q⟩).reverse ++ story)
      (paused + Occurrence.paused id ⟨p, act, q⟩) := by
  have helapsed : Occurrence.paused id ⟨p, act, q⟩ =
      if solo.session.status = .paused then solo'.clock - solo.clock else 0 :=
    hshows.elapsed hshows'
  have hstill (hclock : solo'.clock = solo.clock) : Occurrence.paused id ⟨p, act, q⟩ = 0 := by
    rw [helapsed, hclock, Nat.sub_self]
    split <;> rfl
  cases hseen with
  | beside hbeats =>
    rw [hbeats, hstill rfl]
    exact hpaced
  | @asked happening _ hasked hbeats =>
    have hclock : solo'.clock = solo.clock := by
      cases hasked <;> rfl
    rw [hbeats, hstill hclock]
    refine hpaced.asked hrun.ordered hasked _ fun line hsought => ?_
    rw [hsought] at hbeats
    have hseeks : Occurrence.seeks id ⟨p, act, q⟩ = true := seeks_iff.2 ⟨line, by simp [hbeats]⟩
    rw [hseek] at hseeks
    cases hseeks
  | @played head hact hplace hbeats =>
    have hplays : act = .run (.play id head) := hact
    have hnow : p.surroundings.now = solo.now := hshows.now
    have htick : p.policy.tick.nanos ≤ τ := by
      rw [hplays] at hτ
      simpa [Occurrence.tick] using hτ
    rw [hbeats, hstill rfl]
    exact hpaced.played hrun.timed hrun.ordered hrun.cancelled_iff hplace hnow run.settings_eq
      run.tick_eq htick
  | @passed time hact htime =>
    rw [beats_of_pass hact, helapsed]
    exact hpaced.passed hrun.timed (htime trivial)

/-- In a punctual run, the sum of what a session has held its commands for and of what it was paused
for says when it goes on. -/
theorem Run.paced (run : Run True settings history p) (hseek : Unsought id history)
    (hτ : longestTick id history ≤ τ) :
    (p.Lacks id ∧ story id history = [] ∧ timePaused id history = 0) ∨
      ∃ solo, p.Shows id solo ∧ Solo.Run True settings id (story id history) solo ∧
        solo.Paced τ settings (story id history) (timePaused id history) := by
  induction run with
  | start => exact .inl ⟨lacks_start settings id, rfl, rfl⟩
  | @step history p q act run hstep ih =>
    have htime : timePaused id (⟨p, act, q⟩ :: history) =
        timePaused id history + Occurrence.paused id ⟨p, act, q⟩ := by
      simp [timePaused, Nat.add_comm]
    rw [story_cons, htime]
    rcases ih (fun o ho => hseek o (List.mem_cons_of_mem _ ho)) (Nat.le_trans (Nat.le_max_right _ _) hτ)
      with ⟨hlacks, hstory, hpaused⟩ | ⟨solo, hshows, hrun, hpaced⟩
    · have hnone : Occurrence.paused id ⟨p, act, q⟩ = 0 := by
        simp [Occurrence.paused, hlacks.session]
      rw [hstory, hpaused, hnone]
      rcases hlacks.steps hstep with ⟨hbeats, hlacks'⟩ | ⟨start, script, lines, hbeats, hshows⟩
      · rw [hbeats]
        exact .inl ⟨hlacks', rfl, rfl⟩
      · rw [hbeats]
        exact .inr ⟨_, hshows, .launched p.clock p.policy.ignoreLooping start script lines,
          .launched τ settings p.clock p.policy.ignoreLooping start script lines⟩
    · obtain ⟨solo', hseen, hshows'⟩ := hshows.sees hstep
      exact .inr ⟨solo', hshows', hrun.step (hshows.step run.settings_eq hseen),
        run.paced_step (hseek _ List.mem_cons_self) (Nat.le_trans (Nat.le_max_left _ _) hτ) hshows
          hrun hpaced hseen hshows'⟩

/-- In a punctual run, what a session was paused for is added to the time of its commands. Each pause
may make them up to a tick too early or too late, and nothing else does but for less than a
millisecond. -/
theorem Run.pausing_costs_a_tick (run : Run True settings (later ++ o :: earlier) p)
    (hseek : Unsought id earlier) {i : Nat} (hexecuted : .reached id (.executed i) ∈ o.events) :
    ∃ s begun, o.before.session? id = some s ∧ begunAt? (story id earlier) = some begun ∧
      let played : Int := o.before.clock * 1000000 - begun * 1000000 -
        (account s.program settings (story id earlier)).owed - timePaused id earlier * 1000000
      let cost : Int := (story id earlier).countP Beat.pauses * longestTick id earlier
      played < cost + 1000000 ∧ -cost ≤ played := by
  obtain ⟨hrun, hstep⟩ := run.cut
  rw [hstep.events] at hexecuted
  obtain ⟨head, s, hact, hs, hexecuted⟩ := exists_play_of_reached hexecuted
  rw [hact] at hstep
  obtain ⟨before, after, hready, -⟩ := hstep.eq_of_run
  rcases hrun.paced hseek (Nat.le_refl _) with ⟨hlacks, -, -⟩ | ⟨solo, hshows, hsolo, hpaced⟩
  · have hnone := hlacks.session
    rw [hs] at hnone
    cases hnone
  · obtain ⟨hplace, -⟩ := hshows.place_of_ready hready
    have hsession : solo.session = s := by
      have hsome := hshows.session
      rw [hs] at hsome
      exact (Option.some.inj hsome).symm
    subst hsession
    have hhead : solo.place.head? = some head := by
      rw [hplace]
      rfl
    have hdue : solo.place.due solo.clock = o.before.clock := by
      rw [hplace, hshows.clock]
      rfl
    have hprogress := head.step_progress id o.before.surroundings solo.session
      hsolo.cancelled_iff (hsolo.ordered.opening head hhead)
    obtain ⟨first, rest, hsplit⟩ := List.append_of_mem hexecuted
    obtain ⟨hturn, -, -⟩ := Playhead.events_of_executed hprogress hsplit
    have hlive : solo.session.status ≠ .cancelled := by
      intro hcancelled
      rw [Playhead.events_of_cancelled hturn (hsolo.cancelled_iff.2 hcancelled)] at hexecuted
      cases List.mem_singleton.1 hexecuted
    obtain ⟨hbegun, hcounts, hfresh, hwithin⟩ := hpaced hlive head hhead
    have hkeeps := (hsolo.timed head hhead).2.keeps
    obtain ⟨begun, hbegun⟩ := Option.isSome_iff_exists.1 (hbegun (by rw [hturn]; decide))
    refine ⟨solo.session, begun, hs, hbegun, ?_⟩
    rw [hdue] at hkeeps
    unfold Playhead.Keeps at hkeeps
    unfold Playhead.Within at hwithin
    simp only [hturn] at hkeeps hwithin
    obtain ⟨hcheck, hsettled⟩ := hkeeps
    obtain ⟨-, hlower, hupper⟩ := hwithin
    have hbudget : -1000000 < head.budget ∧ head.budget ≤ 0 := by
      cases hseek : solo.session.pendingSeek with
      | none => exact (hsettled hseek).1
      | some target =>
        have hzero := (hfresh (by rw [hseek]; rfl)).2.1
        omega
    have hends : (story id earlier).countP Beat.resumes * longestTick id earlier ≤
        (story id earlier).countP Beat.pauses * longestTick id earlier :=
      Nat.mul_le_mul_right _ (Nat.le_trans (Nat.le_add_right _ _) hcounts)
    simp only [Playhead.excess, Tally.pauseCost, Tally.resumeCost, tally, hbegun,
      Option.getD_some] at hlower hupper
    unfold Playhead.Checked at hcheck
    intro played cost
    omega

/-- A pause within a wait, over before the playhead looks. -/
def unnoticed : List Occurrence × Playback :=
  let launched := ask (.launch (.inline "rest" "One <wait.0.1>\nTwo") (.top none)) ([], start {})
  let playing := follow (fun _ => 0) 2 launched.1 launched.2
  let paused := ask (.pause ⟨1⟩) (wait 20 playing)
  let resumed := ask (.resume ⟨1⟩) (wait 25 paused)
  follow (fun _ => 100) 8 resumed.1 resumed.2

theorem run_unnoticed : Run True {} unnoticed.1 unnoticed.2 := by
  have hlaunch := Run.launched True {} (.inline "rest" "One <wait.0.1>\nTwo") (.top none)
  have hpause := Run.ask ((hlaunch.follow (fun _ => 0) 2).wait 20 fun _ => by decide +kernel)
    (.pause ⟨1⟩)
  have hresume := Run.ask (hpause.wait 25 fun _ => by decide +kernel) (.resume ⟨1⟩)
  exact hresume.follow (fun _ => 100) 8

theorem pausing_costs_a_tick_unnoticed :
    let head : Playhead := { stage := .turn, lastCheck := 100000000 }
    let o : Occurrence := ⟨unnoticed.2, .run (.play ⟨1⟩ head),
      { unnoticed.2 with ready := [] }.runTask (.play ⟨1⟩ head)⟩
    .reached ⟨1⟩ (.executed 1) ∈ o.events ∧ Unsought ⟨1⟩ unnoticed.1 ∧
      timePaused ⟨1⟩ unnoticed.1 = 5 ∧ longestTick ⟨1⟩ unnoticed.1 = 33000000 ∧
      ∃ s, unnoticed.2.session? ⟨1⟩ = some s ∧
        (-33000000 : Int) ≤
          100000000 - (account s.program {} (story ⟨1⟩ unnoticed.1)).owed - 5000000 := by
  intro head o
  have hready : unnoticed.2.ready = [.play ⟨1⟩ head] := by decide +kernel
  have hexecuted : .reached ⟨1⟩ (.executed 1) ∈ o.events := by decide +kernel
  have hseek : Unsought ⟨1⟩ unnoticed.1 := by decide +kernel
  have hclock : unnoticed.2.clock = 100 := by decide +kernel
  have hpaused : timePaused ⟨1⟩ unnoticed.1 = 5 := by decide +kernel
  have htick : longestTick ⟨1⟩ unnoticed.1 = 33000000 := by decide +kernel
  have hpauses : (story ⟨1⟩ unnoticed.1).countP Beat.pauses = 1 := by decide +kernel
  have hbegun : begunAt? (story ⟨1⟩ unnoticed.1) = some 0 := by decide +kernel
  have hstep : Step True o.before o.act o.after := @Step.run True unnoticed.2 [] [] _ hready
  obtain ⟨s, begun, hs, hbegun', -, hlower⟩ :=
    @Run.pausing_costs_a_tick {} [] unnoticed.1 _ ⟨1⟩ o (run_unnoticed.step hstep) hseek 1
      hexecuted
  have hbegin : begun = 0 := Option.some.inj (hbegun'.symm.trans hbegun)
  have hclock' : o.before.clock = 100 := hclock
  rw [hbegin, hclock', hpaused, hpauses, htick] at hlower
  exact ⟨hexecuted, hseek, hpaused, htick, s, hs, by omega⟩

end Playback

end Choreo
