import Choreo.Proofs.Playback.Addressed

/-!
# A session with nothing beside it

Where nothing is left but what concerns one session, and its tasks go on in a given order, it is
determined what happens between the moments in which something is asked. A moment is a millisecond and,
as long as the session has something left to do in it, how far it has come.
-/

namespace Choreo.Playback

structure Moment where
  time : Nat
  /-- How often the session went on or woke up before, if it has something left to do in the
  millisecond. -/
  turn : Option Nat
deriving DecidableEq

structure Lone where
  scene : Playback
  turns : Nat

namespace Lone

def Quiet (x : Lone) : Prop :=
  x.scene.ready = [] ∧ ∀ sleeper ∈ x.scene.sleepers, x.scene.clock < sleeper.wake

instance (x : Lone) : Decidable x.Quiet :=
  inferInstanceAs (Decidable (x.scene.ready = [] ∧
    ∀ sleeper ∈ x.scene.sleepers, x.scene.clock < sleeper.wake))

def moment (x : Lone) : Moment := ⟨x.scene.clock, if x.Quiet then none else some x.turns⟩

def run (x : Lone) (task : Task) (rest : List Task) : Lone :=
  ⟨({ x.scene with ready := rest }.runTask task).alone ⟨1⟩, x.turns + 1⟩

def pass (x : Lone) (time : Nat) : Lone :=
  ⟨x.scene.wakeAt time,
    x.turns + if x.scene.sleepers.any (·.wake ≤ time) then 1 else 0⟩

def ask (x : Lone) (request : Request) : Lone :=
  ⟨(x.scene.serve request).1.alone ⟨1⟩, x.turns⟩

/-- The session comes from one state to another while it is asked what is on an agenda. The order tells
how many of the tasks that could go on as well a turn passes over. -/
inductive Lives (order : Nat → Nat) : Lone → List (Moment × Request) → Lone → Prop where
  | done (x : Lone) : Lives order x [] x
  | run {x y : Lone} {agenda : List (Moment × Request)} {task : Task} {before after : List Task}
      (hready : x.scene.ready = before ++ task :: after) (horder : before.length = order x.turns)
      (later : Lives order (x.run task (before ++ after)) agenda y) : Lives order x agenda y
  | pass {x y : Lone} {agenda : List (Moment × Request)} {time : Nat}
      (htime : x.scene.OnTime time) (later : Lives order (x.pass time) agenda y) :
      Lives order x agenda y
  | ask {x y : Lone} {agenda : List (Moment × Request)} {request : Request}
      (later : Lives order (x.ask request) agenda y) :
      Lives order x ((x.moment, request) :: agenda) y

/-- The moment up to which nothing is asked. -/
def next (agenda : List (Moment × Request)) (last : Moment) : Moment :=
  match agenda with
  | [] => last
  | (moment, _) :: _ => moment

def Before (x : Lone) (moment : Moment) : Prop :=
  x.scene.clock ≤ moment.time ∧ ∀ turn, moment.turn = some turn → x.turns ≤ turn

variable {x y z : Lone} {first rest agenda : List (Moment × Request)} {time : Nat}
variable {order : Nat → Nat} {request : Request} {task : Task} {before after : List Task}

theorem Lives.trans (hxy : Lives order x first y) (hyz : Lives order y rest z) :
    Lives order x (first ++ rest) z := by
  induction hxy with
  | done => exact hyz
  | run hready horder _ ih => exact .run hready horder (ih hyz)
  | pass htime _ ih => exact .pass htime (ih hyz)
  | ask _ ih => exact .ask (ih hyz)

theorem before_moment (x : Lone) : x.Before x.moment := by
  refine ⟨Nat.le_refl _, fun turn hturn => ?_⟩
  simp only [moment] at hturn
  split at hturn
  · cases hturn
  · exact Nat.le_of_eq (Option.some.inj hturn)

theorem Lives.before_next (lives : Lives order x agenda y) :
    x.Before (next agenda y.moment) := by
  induction lives with
  | done x => exact x.before_moment
  | @run x y agenda task before after hready _ _ ih =>
    obtain ⟨hclock, hturns⟩ := ih
    have hsame : (x.run task (before ++ after)).scene.clock = x.scene.clock := by
      simp only [Lone.run, runTask_eq]
      rfl
    refine ⟨by rwa [hsame] at hclock, fun turn hturn => ?_⟩
    exact Nat.le_of_succ_le (hturns turn hturn)
  | pass htime _ ih =>
    obtain ⟨hclock, hturns⟩ := ih
    refine ⟨Nat.le_trans (Nat.le_max_left _ _) hclock, fun turn hturn => ?_⟩
    exact Nat.le_trans (Nat.le_add_right _ _) (hturns turn hturn)
  | @ask x y agenda request _ _ => exact x.before_moment

/-- As long as a task may go on, the moment does not come back once it did. -/
theorem not_before_run (hready : x.scene.ready = before ++ task :: after) :
    ¬(x.run task (before ++ after)).Before x.moment := by
  rintro ⟨-, hturns⟩
  have hbusy : ¬x.Quiet := by
    rintro ⟨hempty, -⟩
    rw [hready] at hempty
    simp at hempty
  have hle : x.turns + 1 ≤ x.turns := hturns x.turns (if_neg hbusy)
  omega

theorem not_onTime_of_ready {p : Playback} (hready : p.ready = before ++ task :: after) :
    ¬p.OnTime time := by
  rintro ⟨hempty, -⟩
  rw [hready] at hempty
  simp at hempty

theorem wakeAt_eq_of_forall_lt {p : Playback} (hready : p.ready = [])
    (hlater : ∀ sleeper ∈ p.sleepers, time < sleeper.wake) :
    p.wakeAt time = { p with clock := max p.clock time } := by
  have hdue : p.sleepers.filter (·.wake ≤ time) = [] := by
    rw [List.filter_eq_nil_iff]
    intro sleeper hsleeper
    simpa using hlater sleeper hsleeper
  have hkept : p.sleepers.filter (time < ·.wake) = p.sleepers := by
    rw [List.filter_eq_self]
    intro sleeper hsleeper
    simpa using hlater sleeper hsleeper
  simp only [wakeAt, hdue, hkept, hready, List.map_nil, List.append_nil]

/-- While no one wakes up, nothing happens but that time passes. -/
theorem pass_eq_of_forall_lt (hready : x.scene.ready = [])
    (hlater : ∀ sleeper ∈ x.scene.sleepers, time < sleeper.wake) :
    x.pass time = ⟨{ x.scene with clock := max x.scene.clock time }, x.turns⟩ := by
  have hnone : x.scene.sleepers.any (·.wake ≤ time) = false := by
    rw [List.any_eq_false]
    intro sleeper hsleeper
    simpa using hlater sleeper hsleeper
  rw [pass, wakeAt_eq_of_forall_lt hready hlater, hnone]
  rfl

theorem pass_eq_of_before (htime : x.scene.OnTime time) (hbefore : (x.pass time).Before x.moment) :
    x.pass time = x := by
  obtain ⟨hready, hwakes⟩ := htime
  obtain ⟨hclock, hturns⟩ := hbefore
  have hle : max x.scene.clock time ≤ x.scene.clock := hclock
  have hlater : ∀ sleeper ∈ x.scene.sleepers, time < sleeper.wake := by
    intro sleeper hsleeper
    by_cases hquiet : x.Quiet
    · have hlater := hquiet.2 sleeper hsleeper
      omega
    · have hcount := hturns x.turns (if_neg hquiet)
      by_contra hdue
      have hany : x.scene.sleepers.any (·.wake ≤ time) = true :=
        List.any_eq_true.2 ⟨sleeper, hsleeper, by simpa using hdue⟩
      rw [pass, hany] at hcount
      exact Nat.not_succ_le_self _ hcount
  have hsame : max x.scene.clock time = x.scene.clock := by omega
  rw [pass_eq_of_forall_lt hready hlater, hsame]

/-- Time may pass at once or with a stop in which no one wakes up. -/
theorem pass_pass {later : Nat} (htime : x.scene.OnTime later) (hlt : time < later) :
    (x.pass time).scene.OnTime later ∧ (x.pass time).pass later = x.pass later := by
  obtain ⟨hready, hwakes⟩ := htime
  have hpass := pass_eq_of_forall_lt hready fun sleeper hsleeper =>
    Nat.lt_of_lt_of_le hlt (hwakes sleeper hsleeper)
  rw [hpass]
  refine ⟨⟨hready, hwakes⟩, ?_⟩
  have hclock : max (max x.scene.clock time) later = max x.scene.clock later := by omega
  simp only [pass, wakeAt, hclock]

/-! ## What happens is determined -/

theorem Lives.eq_of_done (lives : Lives order x [] y) (hend : y.moment = x.moment) : x = y := by
  generalize hagenda : ([] : List (Moment × Request)) = agenda at lives
  induction lives with
  | done => rfl
  | run hready _ later =>
    subst hagenda
    have hbefore := later.before_next
    rw [next, hend] at hbefore
    exact absurd hbefore (not_before_run hready)
  | pass htime later ih =>
    subst hagenda
    have hbefore := later.before_next
    rw [next, hend] at hbefore
    have hsame := pass_eq_of_before htime hbefore
    rw [hsame] at ih
    exact ih hend rfl
  | ask => cases hagenda

theorem Lives.of_run (lives : Lives order x agenda z)
    (hready : x.scene.ready = before ++ task :: after) (horder : before.length = order x.turns)
    (hbefore : (x.run task (before ++ after)).Before (next agenda z.moment)) :
    Lives order (x.run task (before ++ after)) agenda z := by
  cases lives with
  | done => exact absurd hbefore (not_before_run hready)
  | run hready' horder' later =>
    -- As many are passed over, so it is the same task.
    obtain ⟨hsame, hrest⟩ :=
      List.append_inj (hready.symm.trans hready') (horder.trans horder'.symm)
    cases hsame
    cases hrest
    exact later
  | pass htime => exact absurd htime (not_onTime_of_ready hready)
  | ask => exact absurd hbefore (not_before_run hready)

theorem Lives.of_pass (lives : Lives order x agenda z) (htime : x.scene.OnTime time)
    (hbefore : (x.pass time).Before (next agenda z.moment)) :
    Lives order (x.pass time) agenda z := by
  induction lives with
  | done x =>
    rw [pass_eq_of_before htime hbefore]
    exact .done x
  | run hready => exact absurd htime (not_onTime_of_ready hready)
  | @pass x z agenda time' htime' later ih =>
    rcases Nat.lt_trichotomy time time' with hlt | rfl | hlt
    · obtain ⟨honTime, hpass⟩ := pass_pass htime' hlt
      refine .pass honTime ?_
      rw [hpass]
      exact later
    · exact later
    · obtain ⟨honTime, hpass⟩ := pass_pass htime hlt
      have hlives := ih honTime
      rw [hpass] at hlives
      exact hlives hbefore
  | ask later =>
    rw [pass_eq_of_before htime hbefore]
    exact .ask later

theorem Lives.of_ask (lives : Lives order x ((x.moment, request) :: agenda) z) :
    Lives order (x.ask request) agenda z := by
  generalize hall : (x.moment, request) :: agenda = all at lives
  induction lives with
  | done => cases hall
  | run hready _ later =>
    subst hall
    exact absurd later.before_next (not_before_run hready)
  | pass htime later ih =>
    subst hall
    have hsame := pass_eq_of_before htime later.before_next
    rw [hsame] at ih
    exact ih rfl
  | ask later =>
    cases hall
    exact later

/-- An order, an agenda and a moment determine what has become of the session. -/
theorem Lives.unique (hy : Lives order x agenda y) (hz : Lives order x agenda z)
    (hend : y.moment = z.moment) : y = z := by
  induction hy with
  | done => exact hz.eq_of_done hend.symm
  | run hready horder later ih =>
    have hbefore := later.before_next
    rw [hend] at hbefore
    exact ih (hz.of_run hready horder hbefore) hend
  | pass htime later ih =>
    have hbefore := later.before_next
    rw [hend] at hbefore
    exact ih (hz.of_pass htime hbefore) hend
  | ask _ ih => exact ih hz.of_ask hend

end Lone

end Choreo.Playback
