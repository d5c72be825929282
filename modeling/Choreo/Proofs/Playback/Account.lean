import Choreo.Proofs.Playback.Story

/-!
# What a session owes to the clock

The account of a session is read off its story: when it began or went to the command that was asked
for, and how long the commands that it has held since then were to be held in all. A playhead knows
nothing of that. It has a budget, which it charges with a wait and from which it takes the time that
has passed. `Playhead.Keeps` says how the two are related at each stage, and that the budget is never
a whole millisecond short between two commands.
-/

namespace Choreo

variable {settings : Settings} {id : SessionId} {program : Program} {story : List Beat}

structure Account where
  /-- The millisecond in which the session began, or in which it last went to what was asked for. -/
  anchor : Nat := 0
  /-- The nanoseconds for which commands were to be held since then. -/
  owed : Nat := 0
  /-- Whether it was not paused since then. -/
  steady : Bool := false
  /-- How much the next wait is to be shortened. -/
  ping : Duration := .zero

namespace Account

def restart (a : Account) (time : Nat) : Account :=
  { a with anchor := time, owed := 0, steady := true }

def charge (program : Program) (settings : Settings) (a : Account) (i : Nat) : Account :=
  match program.commands[i]? with
  | none => a
  | some c =>
    if c.directive = .ping then { a with ping := settings.playback.autopingTime }
    else if c.directive.skipsWait then a
    else { a with owed := a.owed + (c.wait - a.ping).nanos, ping := .zero }

def note (program : Program) (settings : Settings) (time : Nat) (a : Account) : Event → Account
  | .reached _ .began | .reached _ (.sought _) => a.restart time
  | .reached _ (.executed i) => a.charge program settings i
  | _ => a

/-- The millisecond in which everything that is owed is over. -/
def due (a : Account) : Nat := a.anchor + (a.owed + 999999) / 1000000

end Account

def account (program : Program) (settings : Settings) : List Beat → Account
  | [] => {}
  | beat :: earlier =>
    match beat.happening with
    | .paused => { account program settings earlier with steady := false }
    | .noted event => (account program settings earlier).note program settings beat.time event
    | _ => account program settings earlier

theorem account_notes (events : List Event) (time : Nat) (ignoreLooping : Bool)
    (story : List Beat) :
    account program settings ((events.map (Beat.note time ignoreLooping)).reverse ++ story) =
      events.foldl (Account.note program settings time) (account program settings story) := by
  induction events generalizing story with
  | nil => rfl
  | cons event events ih =>
    rw [Beat.notes_cons, ih, List.foldl_cons]
    rfl

/-! ## What a playhead keeps -/

namespace Playhead

variable {h : Playhead} {v : Surroundings} {s : Session} {a : Account} {clock : Nat}

/-- The budget is used up, but for less than a millisecond. -/
def Settled (h : Playhead) : Prop := -1000000 < h.budget ∧ h.budget ≤ 0

def Checked (h : Playhead) (clock : Nat) : Prop := (h.lastCheck : Int) = clock * 1000000

/-- The budget tells when everything that is owed is over. -/
def Agrees (h : Playhead) (a : Account) : Prop :=
  a.steady = true → (h.lastCheck : Int) + h.budget = a.anchor * 1000000 + a.owed

def Keeps (h : Playhead) (s : Session) (a : Account) (due : Nat) : Prop :=
  match h.stage with
  | .opening => h.budget = 0 ∧ a.steady = false
  -- A seek that is pending will drop the budget, so nothing is asked of it.
  | .turn => h.Checked due ∧ (s.pendingSeek = none → h.Settled ∧ h.Agrees a)
  | .rest => a.steady = false ∧ (s.pendingSeek = none → h.Settled)
  -- The playhead wakes up before a whole millisecond has passed beyond its budget.
  | .wait =>
    (h.lastCheck : Int) ≤ due * 1000000 ∧
      (due * 1000000 : Int) < h.lastCheck + h.budget + 1000000 ∧ h.Agrees a
  | .waitRest => a.steady = false ∧ -1000000 < h.budget
  | .pass => h.Checked due ∧ h.Settled ∧ h.Agrees a

theorem Agrees.of_not_steady (hsteady : a.steady = false) (h : Playhead) : h.Agrees a := by
  intro htrue
  rw [hsteady] at htrue
  cases htrue

theorem Keeps.of_pendingSeek {t : Session} {due : Nat} (hkeeps : h.Keeps s a due)
    (hseek : t.pendingSeek = none → s.pendingSeek = none) : h.Keeps t a due := by
  unfold Keeps at hkeeps ⊢
  cases hstage : h.stage with
  | turn =>
    simp only [hstage] at hkeeps
    exact ⟨hkeeps.1, fun hnone => hkeeps.2 (hseek hnone)⟩
  | rest =>
    simp only [hstage] at hkeeps
    exact ⟨hkeeps.1, fun hnone => hkeeps.2 (hseek hnone)⟩
  | _ =>
    simp only [hstage] at hkeeps
    exact hkeeps

theorem Keeps.unsteady {due : Nat} (hkeeps : h.Keeps s a due) :
    h.Keeps s { a with steady := false } due := by
  have hagrees : h.Agrees { a with steady := false } := .of_not_steady rfl h
  unfold Keeps at hkeeps ⊢
  cases hstage : h.stage with
  | opening =>
    simp only [hstage] at hkeeps
    exact ⟨hkeeps.1, rfl⟩
  | rest | waitRest =>
    simp only [hstage] at hkeeps
    exact ⟨rfl, hkeeps.2⟩
  | turn =>
    simp only [hstage] at hkeeps
    exact ⟨hkeeps.1, fun hnone => ⟨(hkeeps.2 hnone).1, hagrees⟩⟩
  | wait =>
    simp only [hstage] at hkeeps
    exact ⟨hkeeps.1, hkeeps.2.1, hagrees⟩
  | pass =>
    simp only [hstage] at hkeeps
    exact ⟨hkeeps.1, hkeeps.2.1, hagrees⟩

/-- Whoever agrees with its account and has nothing left to wait for is there on time. -/
theorem Settled.clock_eq_due (hsettled : h.Settled) (hagrees : h.Agrees a)
    (hcheck : h.Checked clock) (hsteady : a.steady = true) : clock = a.due := by
  have hlower : -1000000 < h.budget := hsettled.1
  have hupper : h.budget ≤ 0 := hsettled.2
  have hsum : (clock : Int) * 1000000 + h.budget = a.anchor * 1000000 + a.owed := by
    rw [← hcheck]
    exact hagrees hsteady
  -- The time since the anchor is what is owed, rounded up to a millisecond.
  have hover : (a.owed : Int) ≤ (clock - a.anchor) * 1000000 := by omega
  have hround : ((clock : Int) - a.anchor) * 1000000 < a.owed + 1000000 := by omega
  unfold Account.due
  omega

/-! ### Charging and sleeping -/

theorem charge_budget (hsettled : h.Settled) (wait : Duration) :
    (h.charge wait).budget = h.budget + wait.nanos := by
  have hupper : h.budget ≤ 0 := hsettled.2
  have hwait := wait.nanos_le
  unfold maxNanos at hwait
  show min (h.budget + wait.nanos) maxBudget = h.budget + wait.nanos
  unfold maxBudget
  omega

theorem sleepMillis_nap (h : Playhead) (tick : Duration) :
    (h.nap tick).sleepMillis = (h.nap tick).ceilMillis := by
  have hnanos : (h.nap tick).nanos ≤ 18446744073709551615 := by
    simp only [nap, Duration.nanos_ofNanos]
    omega
  have hseconds : (h.nap tick).seconds < farthestSecond := by
    unfold Duration.seconds farthestSecond
    omega
  exact if_pos hseconds

theorem nap_lt (hbudget : 0 < h.budget) (tick : Duration) :
    (((h.nap tick).sleepMillis * 1000000 : Nat) : Int) < h.budget + 1000000 := by
  have hnanos : (h.nap tick).nanos ≤ h.budget.toNat := by
    simp only [nap, Duration.nanos_ofNanos]
    omega
  have hround : (h.nap tick).ceilMillis * 1000000 < (h.nap tick).nanos + 1000000 := by
    unfold Duration.ceilMillis
    omega
  rw [sleepMillis_nap]
  omega

theorem keeps_nap (hcheck : h.Checked clock) (hbudget : 0 < h.budget) (hagrees : h.Agrees a)
    (tick : Duration) (s : Session) :
    { h with stage := .wait }.Keeps s a (clock + (h.nap tick).sleepMillis) := by
  have hlt := nap_lt hbudget tick
  unfold Checked at hcheck
  refine ⟨?_, ?_, hagrees⟩
  · show (h.lastCheck : Int) ≤ (clock + (h.nap tick).sleepMillis : Nat) * 1000000
    omega
  · show ((clock + (h.nap tick).sleepMillis : Nat) * 1000000 : Int) <
      h.lastCheck + h.budget + 1000000
    omega

theorem settle_budget {now : Nat} (hle : (h.lastCheck : Int) ≤ now) :
    (h.settle now).budget = h.budget - (now - h.lastCheck) := by
  have hcast := Int.ofNat_sub (Int.ofNat_le.1 hle)
  show h.budget - ((now - h.lastCheck : Nat) : Int) = h.budget - (now - h.lastCheck)
  rw [← hcast]

theorem Keeps.awake (hkeeps : h.Keeps s a clock) (hstage : h.stage = .wait ∨ h.stage = .waitRest)
    (hnow : v.now = clock * 1000000) :
    (h.awake v).Checked clock ∧ -1000000 < (h.awake v).budget ∧ (h.awake v).Agrees a := by
  unfold Keeps at hkeeps
  rcases hstage with hwait | hrest
  · simp only [hwait] at hkeeps
    obtain ⟨hcheck, hbudget, hagrees⟩ := hkeeps
    have hawake : h.awake v = h.settle (clock * 1000000 : Nat) := by
      rw [Playhead.awake, if_pos hwait, hnow]
    have hle : (h.lastCheck : Int) ≤ (clock * 1000000 : Nat) := by omega
    have hspent := settle_budget hle
    rw [hawake]
    refine ⟨?_, ?_, fun hsteady => ?_⟩
    · show ((clock * 1000000 : Nat) : Int) = clock * 1000000
      omega
    · rw [hspent]
      omega
    · have hsum := hagrees hsteady
      show ((clock * 1000000 : Nat) : Int) + (h.settle (clock * 1000000 : Nat)).budget = _
      rw [hspent]
      omega
  · simp only [hrest] at hkeeps
    obtain ⟨hunsteady, hbudget⟩ := hkeeps
    have hawake : h.awake v = { h with lastCheck := (clock * 1000000 : Nat) } := by
      rw [Playhead.awake, if_neg (by rw [hrest]; decide), hnow]
    rw [hawake]
    refine ⟨?_, hbudget, .of_not_steady hunsteady _⟩
    show ((clock * 1000000 : Nat) : Int) = clock * 1000000
    omega

end Playhead

end Choreo
