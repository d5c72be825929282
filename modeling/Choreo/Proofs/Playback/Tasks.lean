import Choreo.Proofs.Playback.Shared
import Mathlib.Data.List.Perm.Basic

/-!
# Every task goes on once

A task is put into the queue or put to sleep in one step, and it goes on in another. Nothing else makes
a task or loses it, so the tasks that a run has planned are those that have gone on and those that are
still to go on. In a punctual run the two steps agree on the millisecond.
-/

namespace Choreo.Playback

variable {punctual : Prop} {settings : Settings} {history : List Occurrence}
variable {p q : Playback} {act : Act} {task : Task}

/-- The tasks that are still to go on, with the millisecond in which each of them may. -/
def due (p : Playback) : List Sleeper := p.ready.map (Sleeper.mk p.clock) ++ p.sleepers

/-- The tasks that a step puts into the queue or puts to sleep. -/
def actDue (p : Playback) : Act → List Sleeper
  | .serve (.launch _ _) true => [⟨p.clock, .play p.nextId { lastCheck := p.now }⟩]
  | .run task => (p.taskFront task ++ p.taskBack task).map (Sleeper.mk p.clock) ++
      p.taskSleepers task
  | _ => []

def actDone (p : Playback) : Act → List Sleeper
  | .run task => [⟨p.clock, task⟩]
  | _ => []

def Occurrence.planned (o : Occurrence) : List Sleeper := o.before.actDue o.act

def Occurrence.done (o : Occurrence) : List Sleeper := o.before.actDone o.act

def Prompt (p : Playback) : Prop := ∀ sleeper ∈ p.sleepers, p.clock ≤ sleeper.wake

theorem Prompt.le_wake {sleeper : Sleeper} (h : p.Prompt)
    (hdue : sleeper ∈ p.due) : p.clock ≤ sleeper.wake := by
  rcases List.mem_append.1 hdue with hready | hsleeps
  · obtain ⟨task, -, rfl⟩ := List.mem_map.1 hready
    exact Nat.le_refl _
  · exact h sleeper hsleeps

/-! ## Steps -/

theorem actDue_of_not_launch {request : Request}
    (hlaunch : ∀ script start, request ≠ .launch script start) (granted : Bool) :
    p.actDue (.serve request granted) = [] := by
  cases request with
  | launch script start => exact absurd rfl (hlaunch script start)
  | _ => rfl

theorem due_serve_perm (p : Playback) (request : Request) :
    (p.serve request).1.due.Perm (p.due ++ p.actDue (.serve request (p.serve request).2)) := by
  by_cases hlaunch : ∃ script start, request = .launch script start
  · obtain ⟨script, start, rfl⟩ := hlaunch
    rcases launch_cases p script start with hrefused | ⟨lines, hlaunched⟩
    · have hnone : p.actDue (.serve (.launch script start) false) = [] := rfl
      rw [hrefused, hnone, List.append_nil]
    · have hone : p.actDue (.serve (.launch script start) true) =
          [⟨p.clock, .play p.nextId { lastCheck := p.now }⟩] := rfl
      have hsplit : (p.launched script start lines).due = p.ready.map (Sleeper.mk p.clock) ++
          ([⟨p.clock, .play p.nextId { lastCheck := p.now }⟩] ++ p.sleepers) := by
        simp [due, Playback.launched]
      rw [hlaunched, hone, hsplit, due, List.append_assoc]
      exact List.perm_append_comm.append_left _
  · have hother : ∀ script start, request ≠ .launch script start :=
      fun script start heq => hlaunch ⟨script, start, heq⟩
    rcases p.serve_cases request with ⟨script, start, _, heq, -⟩ | ⟨_, _, _, _, hserve⟩
    · exact absurd heq (hother script start)
    · rw [actDue_of_not_launch hother, List.append_nil, hserve]
      rfl

theorem due_runTask_perm {before after : List Task} (hready : p.ready = before ++ task :: after) :
    (p.actDone (.run task) ++ ({ p with ready := before ++ after }.runTask task).due).Perm
      (p.due ++ p.actDue (.run task)) := by
  rw [runTask_take_eq, List.perm_iff_count]
  intro sleeper
  simp only [actDone, actDue, due, hready, List.map_append, List.map_cons, List.count_append,
    List.count_cons, List.count_nil]
  omega

theorem sleepers_perm (p : Playback) (time : Nat) :
    (p.sleepers.filter (·.wake ≤ time) ++ p.sleepers.filter (time < ·.wake)).Perm p.sleepers := by
  have hlater : p.sleepers.filter (time < ·.wake) =
      p.sleepers.filter fun sleeper => !decide (sleeper.wake ≤ time) := by
    apply List.filter_congr
    intro sleeper _
    by_cases hle : sleeper.wake ≤ time
    · rw [decide_eq_false (Nat.not_lt.2 hle), decide_eq_true hle, Bool.not_true]
    · rw [decide_eq_true (Nat.not_le.1 hle), decide_eq_false hle, Bool.not_false]
  rw [hlater]
  exact List.filter_append_perm _ p.sleepers

/-- The clock stops wherever a task wakes up, so each task is woken up when it is due. -/
theorem due_wakeAt_perm {time : Nat} (htime : p.OnTime time) (hprompt : p.Prompt) :
    (p.wakeAt time).due.Perm p.due := by
  obtain ⟨hready, hwakes⟩ := htime
  have hwoken : ((p.sleepers.filter (·.wake ≤ time)).map Sleeper.task).map
      (Sleeper.mk (max p.clock time)) = p.sleepers.filter (·.wake ≤ time) := by
    rw [List.map_map]
    refine (List.map_congr_left fun sleeper hsleeper => ?_).trans (List.map_id _)
    obtain ⟨hmem, hdue⟩ := List.mem_filter.1 hsleeper
    have hclock := hprompt sleeper hmem
    have hwake := hwakes sleeper hmem
    have hsame : max p.clock time = sleeper.wake := by
      have hle : sleeper.wake ≤ time := of_decide_eq_true hdue
      omega
    rw [Function.comp_apply, hsame]
    rfl
  simp only [due, wakeAt, hready, List.nil_append, List.map_nil, hwoken]
  exact p.sleepers_perm time

theorem tasks_of_ready (clock : Nat) (tasks : List Task) :
    (tasks.map (Sleeper.mk clock)).map Sleeper.task = tasks := by
  rw [List.map_map]
  exact List.map_id _

theorem tasks_wakeAt_perm (p : Playback) (time : Nat) :
    ((p.wakeAt time).due.map Sleeper.task).Perm (p.due.map Sleeper.task) := by
  have hperm := ((p.sleepers_perm time).map Sleeper.task).append_left p.ready
  simp only [List.map_append] at hperm
  simp only [due, wakeAt, List.map_append, tasks_of_ready, List.append_assoc]
  exact hperm

theorem Step.due_perm (hstep : Step True p act q) (hprompt : p.Prompt) :
    (p.actDone act ++ q.due).Perm (p.due ++ p.actDue act) := by
  cases hstep with
  | serve request => exact due_serve_perm p request
  | run hready => exact due_runTask_perm hready
  | pass htime =>
    have hnone (time : Nat) : p.actDue (.pass time) = [] := rfl
    rw [hnone, List.append_nil]
    exact due_wakeAt_perm (htime trivial) hprompt

theorem Step.tasks_perm (hstep : Step punctual p act q) :
    ((p.actDone act ++ q.due).map Sleeper.task).Perm ((p.due ++ p.actDue act).map Sleeper.task) := by
  cases hstep with
  | serve request => exact (due_serve_perm p request).map _
  | run hready => exact (due_runTask_perm hready).map _
  | @pass time =>
    have hnone : p.actDue (.pass time) = [] := rfl
    rw [hnone, List.append_nil]
    exact tasks_wakeAt_perm p time

theorem le_wake_of_mem_taskSleepers {sleeper : Sleeper} (hmem : sleeper ∈ p.taskSleepers task) :
    p.clock ≤ sleeper.wake := by
  cases task with
  | play id head =>
    simp only [taskSleepers] at hmem
    split at hmem
    · cases hmem
    · next s _ =>
      rcases List.mem_append.1 hmem with hcountdown | hnext
      · obtain ⟨_, _, rfl⟩ := Effect.eq_countdown_of_mem hcountdown
        exact Nat.le_add_right _ _
      · cases hmove : (head.step p.surroundings s).next with
        | sleep time head' =>
          rw [hmove] at hnext
          cases List.mem_singleton.1 hnext
          exact Nat.le_add_right _ _
        | ended =>
          rw [hmove] at hnext
          obtain ⟨_, _, -, rfl⟩ := eq_release_of_mem hnext
          exact Nat.le_add_right _ _
        | again head' | yield head' =>
          rw [hmove] at hnext
          cases hnext
  | pad id payload left =>
    cases left with
    | zero => cases hmem
    | succ left =>
      simp only [taskSleepers] at hmem
      split at hmem
      · cases hmem
      · split at hmem
        · cases hmem
        · cases List.mem_singleton.1 hmem
          exact Nat.le_add_right _ _
  | countdown id epoch command => cases hmem
  | release ticket command => cases hmem

theorem Step.clock_le (hstep : Step punctual p act q) : p.clock ≤ q.clock := by
  cases hstep with
  | serve request =>
    have hclock : (p.serve request).1.clock = p.clock := by
      rcases p.serve_cases request with ⟨_, _, _, -, hserve⟩ | ⟨_, _, _, _, hserve⟩
      · rw [hserve]
        rfl
      · rw [hserve]
    exact Nat.le_of_eq hclock.symm
  | @run before after task hready =>
    have hclock : ({ p with ready := before ++ after }.runTask task).clock = p.clock := by
      rw [runTask_take_eq]
    exact Nat.le_of_eq hclock.symm
  | @pass time => exact Nat.le_max_left _ _

theorem Step.prompt (hstep : Step True p act q) (hprompt : p.Prompt) : q.Prompt := by
  cases hstep with
  | serve request =>
    rcases p.serve_cases request with ⟨_, _, _, -, hserve⟩ | ⟨_, _, _, _, hserve⟩
    · rw [hserve]
      exact hprompt
    · rw [hserve]
      exact hprompt
  | run hready =>
    rw [runTask_take_eq]
    intro sleeper hsleeper
    rcases List.mem_append.1 hsleeper with hold | hnew
    · exact hprompt sleeper hold
    · have hwake : p.clock ≤ sleeper.wake := le_wake_of_mem_taskSleepers hnew
      exact hwake
  | @pass time htime =>
    intro sleeper hsleeper
    obtain ⟨hmem, -⟩ := List.mem_filter.1 hsleeper
    exact Nat.max_le.2 ⟨hprompt sleeper hmem, (htime trivial).2 sleeper hmem⟩

/-! ## Timers -/

/-- Countdowns and releases, which go on without their session. -/
def isTimer : Task → Bool
  | .countdown _ _ _ | .release _ _ => true
  | _ => false

def timers (sleepers : List Sleeper) : List Sleeper := sleepers.filter (isTimer ·.task)

theorem timers_append (first rest : List Sleeper) :
    timers (first ++ rest) = timers first ++ timers rest := List.filter_append _ _

theorem timers_actDue_of_not_play (hplay : ∀ id head, act ≠ .run (.play id head)) :
    timers (p.actDue act) = [] := by
  cases act with
  | pass time => rfl
  | serve request granted =>
    cases request with
    | launch script start => cases granted <;> rfl
    | _ => rfl
  | run task =>
    cases task with
    | play id head => exact absurd rfl (hplay id head)
    | pad id payload left =>
      cases left with
      | zero => rfl
      | succ left =>
        simp only [actDue, taskFront, taskBack, taskSleepers]
        split
        · rfl
        · split <;> rfl
    | _ => rfl

theorem timers_actDue_run (p : Playback) (task : Task) :
    timers (p.actDue (.run task)) = timers (p.taskSleepers task) := by
  have hfront (id : SessionId) (next : Next) :
      timers ((next.front id).map (Sleeper.mk p.clock)) = [] := by
    cases next <;> rfl
  have hback (id : SessionId) (next : Next) :
      timers ((next.back id).map (Sleeper.mk p.clock)) = [] := by
    cases next <;> rfl
  have hpads (id : SessionId) (effects : List Effect) :
      timers ((effects.filterMap (Effect.task? id)).map (Sleeper.mk p.clock)) = [] := by
    rw [timers, List.filter_eq_nil_iff]
    intro sleeper hsleeper
    obtain ⟨task, htask, rfl⟩ := List.mem_map.1 hsleeper
    obtain ⟨_, rfl⟩ := Effect.eq_pad_of_mem htask
    exact Bool.false_ne_true
  cases task with
  | play id head =>
    simp only [actDue, taskFront, taskBack]
    cases p.session? id with
    | none => rfl
    | some s => simp only [List.map_append, timers_append, hfront, hback, hpads, List.nil_append]
  | _ => rfl

/-- Only playheads plan timers: a countdown as a region is entered, and releases as they end. -/
theorem timers_actDue_play {id : SessionId} {head : Playhead} {s : Session}
    (hs : p.session? id = some s) :
    timers (p.actDue (.run (.play id head))) =
      (head.step p.surroundings s).effects.filterMap (Effect.sleeper? p.clock p.settings.host id
          (head.step p.surroundings s).session.epoch) ++
        if (head.step p.surroundings s).next = .ended then
          [.busy, .mare].filterMap ({ p with policy := p.taskPolicy (.play id head) }.release? id)
        else [] := by
  have hcountdowns (effects : List Effect) (epoch : Nat) :
      timers (effects.filterMap (Effect.sleeper? p.clock p.settings.host id epoch)) =
        effects.filterMap (Effect.sleeper? p.clock p.settings.host id epoch) := by
    rw [timers, List.filter_eq_self]
    intro sleeper hsleeper
    obtain ⟨_, _, rfl⟩ := Effect.eq_countdown_of_mem hsleeper
    rfl
  have hreleases (r : Playback) :
      timers ([.busy, .mare].filterMap (r.release? id)) = [.busy, .mare].filterMap (r.release? id) := by
    rw [timers, List.filter_eq_self]
    intro sleeper hsleeper
    obtain ⟨_, _, -, rfl⟩ := eq_release_of_mem hsleeper
    rfl
  rw [timers_actDue_run]
  simp only [taskSleepers, hs, timers_append, hcountdowns]
  cases (head.step p.surroundings s).next with
  | ended =>
    rw [if_pos rfl]
    exact congrArg _ (hreleases _)
  | _ => rfl

/-! ## Runs -/

theorem Run.prompt (run : Run True settings history p) : p.Prompt := by
  induction run with
  | start =>
    intro sleeper hsleeper
    cases hsleeper
  | step run hstep ih => exact hstep.prompt ih

/-- In a punctual run, every task that was planned goes on in the millisecond that it was planned for,
or is still to go on in it. -/
theorem Run.due_perm (run : Run True settings history p) :
    (history.flatMap Occurrence.done ++ p.due).Perm (history.flatMap Occurrence.planned) := by
  induction run with
  | start => exact .refl _
  | @step history p q act run hstep ih =>
    have hone := hstep.due_perm run.prompt
    rw [List.perm_iff_count] at ih hone ⊢
    intro sleeper
    have hall := ih sleeper
    have hlast := hone sleeper
    simp only [List.flatMap_cons, List.count_append, Occurrence.done, Occurrence.planned]
      at hall hlast ⊢
    omega

/-- Every task that was planned has gone on, or is still to go on. -/
theorem Run.tasks_perm (run : Run punctual settings history p) :
    ((history.flatMap Occurrence.done ++ p.due).map Sleeper.task).Perm
      ((history.flatMap Occurrence.planned).map Sleeper.task) := by
  induction run with
  | start => exact .refl _
  | @step history p q act run hstep ih =>
    have hone := hstep.tasks_perm
    rw [List.perm_iff_count] at ih hone ⊢
    intro task
    have hall := ih task
    have hlast := hone task
    simp only [List.flatMap_cons, List.map_append, List.count_append, Occurrence.done,
      Occurrence.planned] at hall hlast ⊢
    omega

/-- A task that may go on was planned in an earlier step, and in a punctual run for this very
millisecond. -/
theorem Run.exists_planned (run : Run punctual settings history p) (hready : task ∈ p.ready) :
    ∃ later o earlier, history = later ++ o :: earlier ∧
      ∃ sleeper ∈ o.planned, sleeper.task = task ∧ (punctual → sleeper.wake = p.clock) := by
  have hdue : ⟨p.clock, task⟩ ∈ p.due := List.mem_append_left _ (List.mem_map_of_mem hready)
  by_cases hpunctual : punctual
  · have hplanned : ⟨p.clock, task⟩ ∈ history.flatMap Occurrence.planned := by
      have hrun : Run True settings history p := by
        rwa [eq_true hpunctual] at run
      exact hrun.due_perm.mem_iff.1 (List.mem_append_right _ hdue)
    obtain ⟨o, ho, hmem⟩ := List.mem_flatMap.1 hplanned
    obtain ⟨later, earlier, hsplit⟩ := List.append_of_mem ho
    exact ⟨later, o, earlier, hsplit, _, hmem, rfl, fun _ => rfl⟩
  · have hplanned : task ∈ (history.flatMap Occurrence.planned).map Sleeper.task :=
      run.tasks_perm.mem_iff.1 (List.mem_map_of_mem (List.mem_append_right _ hdue))
    obtain ⟨sleeper, hsleeper, htask⟩ := List.mem_map.1 hplanned
    obtain ⟨o, ho, hmem⟩ := List.mem_flatMap.1 hsleeper
    obtain ⟨later, earlier, hsplit⟩ := List.append_of_mem ho
    exact ⟨later, o, earlier, hsplit, sleeper, hmem, htask, fun htrue => absurd htrue hpunctual⟩

end Choreo.Playback
