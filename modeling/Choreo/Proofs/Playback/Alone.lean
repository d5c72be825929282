import Choreo.Proofs.Playback.Cancellation
import Choreo.Proofs.Playback.Shared
import Mathlib.Data.List.Basic

/-!
# What a playback is to one of its sessions

Of a playback, `alone` keeps what concerns one session: the session itself, its tasks, what was written
about it, the clock and the settings that all share. The flags are left out, as no session looks at
them. What others do leaves that as it is, and what the session does can be done there as well.
-/

namespace Choreo

/-! ## What belongs to a session -/

def Task.as (id : SessionId) : Task → Task
  | .play _ head => .play id head
  | .pad _ payload left => .pad id payload left
  | .countdown _ epoch command => .countdown id epoch command
  | .release ticket command => .release ticket command

def Event.session? : Event → Option SessionId
  | .sent envelope => envelope.origin
  | .reached id _ => some id

def Event.as (id : SessionId) : Event → Event
  | .sent envelope => .sent { envelope with origin := some id }
  | .reached _ milestone => .reached id milestone

/-- The task, under the first number, if it belongs to a session. -/
def Task.own? (a : SessionId) (task : Task) : Option Task :=
  if task.session? = some a then some (task.as ⟨1⟩) else none

def Sleeper.own? (a : SessionId) (sleeper : Sleeper) : Option Sleeper :=
  (sleeper.task.own? a).map (Sleeper.mk sleeper.wake)

def Event.own? (a : SessionId) (event : Event) : Option Event :=
  if event.session? = some a then some (event.as ⟨1⟩) else none

def Entry.own? (a : SessionId) (entry : Entry) : Option Entry :=
  (entry.event.own? a).map (Entry.mk entry.time)

def Policy.unflagged (policy : Policy) : Policy := { policy with busy := {}, mare := {} }

/-- What concerns a session, which gets the first number. -/
def Playback.alone (a : SessionId) (p : Playback) : Playback where
  settings := p.settings
  policy := p.policy.unflagged
  allowed := p.allowed
  clock := p.clock
  sessions := (p.session? a).toList
  active := if p.isActive a then [⟨1⟩] else []
  held := if p.held.contains a then [⟨1⟩] else []
  ready := p.ready.filterMap (Task.own? a)
  sleepers := p.sleepers.filterMap (Sleeper.own? a)
  journal := p.journal.filterMap (Entry.own? a)

variable {a i : SessionId} {task : Task} {sleeper : Sleeper} {event : Event}

namespace Task

theorem session?_as (htask : task.session? = some a) (id : SessionId) :
    (task.as id).session? = some id := by
  cases task with
  | release ticket command => cases htask
  | _ => rfl

theorem own?_of_eq (htask : task.session? = some a) : task.own? a = some (task.as ⟨1⟩) :=
  if_pos htask

theorem own?_of_ne (htask : task.session? ≠ some a) : task.own? a = none := if_neg htask

theorem own?_own? (a : SessionId) (task : Task) :
    (task.own? a).bind (own? ⟨1⟩) = task.own? a := by
  by_cases htask : task.session? = some a
  · rw [own?_of_eq htask, Option.bind_some, own?_of_eq (session?_as htask _)]
    cases task <;> rfl
  · rw [own?_of_ne htask]
    rfl

end Task

theorem Sleeper.own?_own? (a : SessionId) (sleeper : Sleeper) :
    (sleeper.own? a).bind (own? ⟨1⟩) = sleeper.own? a := by
  have htask := sleeper.task.own?_own? a
  unfold own?
  cases hown : sleeper.task.own? a with
  | none => rfl
  | some task =>
    rw [hown, Option.bind_some] at htask
    simp [htask]

theorem Event.own?_own? (a : SessionId) (event : Event) :
    (event.own? a).bind (own? ⟨1⟩) = event.own? a := by
  unfold own?
  by_cases hevent : event.session? = some a
  · rw [if_pos hevent, Option.bind_some]
    cases event <;> rfl
  · rw [if_neg hevent]
    rfl

theorem Entry.own?_own? (a : SessionId) (entry : Entry) :
    (entry.own? a).bind (own? ⟨1⟩) = entry.own? a := by
  have hevent := entry.event.own?_own? a
  unfold own?
  cases hown : entry.event.own? a with
  | none => rfl
  | some event =>
    rw [hown, Option.bind_some] at hevent
    simp [hevent]

/-- What was picked out belongs to the first number, so nothing is lost if it is picked out again. -/
theorem filterMap_own {α : Type} {own : SessionId → α → Option α}
    (hown : ∀ a x, (own a x).bind (own ⟨1⟩) = own a x) (a : SessionId) (xs : List α) :
    (xs.filterMap (own a)).filterMap (own ⟨1⟩) = xs.filterMap (own a) := by
  rw [List.filterMap_filterMap]
  exact List.filterMap_congr fun x _ => hown a x

/-! ## Effects -/

theorem Policy.unflagged_setFlag (policy : Policy) (flag : AutoFlag) (state : FlagState) :
    (policy.setFlag flag state).unflagged = policy.unflagged := by
  cases flag <;> rfl

theorem unflagged_foldl_onPolicy (id : SessionId) (effects : List Effect) (policy : Policy) :
    (effects.foldl (Effect.onPolicy id) policy).unflagged = policy.unflagged := by
  induction effects generalizing policy with
  | nil => rfl
  | cons effect effects ih =>
    rw [List.foldl_cons, ih]
    cases effect with
    | arm flag => exact policy.unflagged_setFlag flag _
    | _ => rfl

namespace Effect

theorem own?_event? (a : SessionId) (s : Session) (effect : Effect) :
    (effect.event? a s).bind (Event.own? a) = effect.event? ⟨1⟩ s := by
  cases effect with
  | send command mode =>
    simp only [event?]
    split
    · rfl
    · exact if_pos rfl
  | reach milestone => exact if_pos rfl
  | _ => rfl

theorem own?_task? (a : SessionId) (effect : Effect) :
    (effect.task? a).bind (Task.own? a) = effect.task? ⟨1⟩ := by
  cases effect with
  | pad padding => exact if_pos rfl
  | _ => rfl

theorem own?_sleeper? (clock : Nat) (host : HostCommands) (a : SessionId) (epoch : Nat)
    (effect : Effect) :
    (effect.sleeper? clock host a epoch).bind (Sleeper.own? a) =
      effect.sleeper? clock host ⟨1⟩ epoch := by
  cases effect with
  | countdown lead offset =>
    have hown : Task.own? a (.countdown a epoch (host.countdownFor lead)) =
        some (.countdown ⟨1⟩ epoch (host.countdownFor lead)) := if_pos rfl
    simp [sleeper?, Sleeper.own?, hown]
  | _ => rfl

end Effect

theorem Next.own_front (a : SessionId) (next : Next) :
    (next.front a).filterMap (Task.own? a) = next.front ⟨1⟩ := by
  cases next with
  | again head => simp [front, Task.own?, Task.session?, Task.as]
  | _ => rfl

theorem Next.own_back (a : SessionId) (next : Next) :
    (next.back a).filterMap (Task.own? a) = next.back ⟨1⟩ := by
  cases next with
  | yield head => simp [back, Task.own?, Task.session?, Task.as]
  | _ => rfl

namespace Playback

variable {punctual : Prop} {p q : Playback}

/-! ## Looking at the session -/

theorem session?_alone (a : SessionId) (p : Playback) :
    (p.alone a).session? ⟨1⟩ = p.session? a := by
  show (p.session? a).toList[0]? = p.session? a
  cases p.session? a <;> rfl

theorem isActive_alone (a : SessionId) (p : Playback) :
    (p.alone a).isActive ⟨1⟩ = p.isActive a := by
  show (if p.isActive a then [(⟨1⟩ : SessionId)] else []).contains ⟨1⟩ = p.isActive a
  cases p.isActive a <;> rfl

theorem contains_held_alone (a : SessionId) (p : Playback) :
    (p.alone a).held.contains ⟨1⟩ = p.held.contains a := by
  show (if p.held.contains a then [(⟨1⟩ : SessionId)] else []).contains ⟨1⟩ = p.held.contains a
  cases p.held.contains a <;> rfl

theorem known?_alone (a : SessionId) (p : Playback) : (p.alone a).known? ⟨1⟩ = p.known? a := by
  rw [known?, known?, isActive_alone, contains_held_alone, session?_alone]

theorem surroundings_alone (a : SessionId) (p : Playback) :
    (p.alone a).surroundings = p.surroundings := rfl

/-! ## What a task does to its session -/

theorem own_release? (p : Playback) (id a : SessionId) :
    ([AutoFlag.busy, .mare].filterMap (p.release? id)).filterMap (Sleeper.own? a) = [] := by
  rw [List.filterMap_eq_nil_iff]
  intro sleeper hsleeper
  obtain ⟨_, _, -, rfl⟩ := eq_release_of_mem hsleeper
  rfl

theorem own_nextSleepers (hclock : q.clock = p.clock) (a : SessionId) (next : Next) :
    (q.nextSleepers ⟨1⟩ next).filterMap (Sleeper.own? ⟨1⟩) =
      (p.nextSleepers a next).filterMap (Sleeper.own? a) := by
  cases next with
  | sleep time head =>
    simp [nextSleepers, Sleeper.own?, Task.own?, Task.session?, Task.as, hclock]
  | ended => rw [nextSleepers, nextSleepers, own_release?, own_release?]
  | _ => rfl

section Own

variable (htask : task.session? = some a)

include htask

theorem own_taskFront (p : Playback) :
    ((p.alone a).taskFront (task.as ⟨1⟩)).filterMap (Task.own? ⟨1⟩) =
      (p.taskFront task).filterMap (Task.own? a) := by
  cases task with
  | play i head =>
    cases htask
    simp only [Task.as, taskFront, session?_alone, surroundings_alone]
    cases p.session? a with
    | none => rfl
    | some s => simp only [Next.own_front]
  | _ => rfl

theorem own_taskBack (p : Playback) :
    ((p.alone a).taskBack (task.as ⟨1⟩)).filterMap (Task.own? ⟨1⟩) =
      (p.taskBack task).filterMap (Task.own? a) := by
  cases task with
  | play i head =>
    cases htask
    simp only [Task.as, taskBack, session?_alone, surroundings_alone]
    cases p.session? a with
    | none => rfl
    | some s =>
      simp only [List.filterMap_append, List.filterMap_filterMap, Next.own_back, Effect.own?_task?]
  | _ => rfl

theorem own_taskEvents (p : Playback) :
    ((p.alone a).taskEvents (task.as ⟨1⟩)).filterMap (Event.own? ⟨1⟩) =
      (p.taskEvents task).filterMap (Event.own? a) := by
  cases task with
  | play i head =>
    cases htask
    simp only [Task.as, taskEvents, session?_alone, surroundings_alone]
    cases p.session? a with
    | none => rfl
    | some s => simp only [Move.events, List.filterMap_filterMap, Effect.own?_event?]
  | pad i payload left =>
    cases htask
    simp only [Task.as, taskEvents, known?_alone]
    split
    · split
      · rfl
      · simp [Event.own?, Event.session?, Event.as]
    · rfl
  | countdown i epoch command =>
    cases htask
    have hignore : (p.alone a).policy.ignoreCountdown = p.policy.ignoreCountdown := rfl
    simp only [Task.as, taskEvents, isActive_alone, session?_alone, hignore]
    split
    · split
      · simp [Event.own?, Event.session?, Event.as]
      · rfl
    · rfl
  | release ticket command => cases htask

theorem own_taskSleepers (p : Playback) :
    ((p.alone a).taskSleepers (task.as ⟨1⟩)).filterMap (Sleeper.own? ⟨1⟩) =
      (p.taskSleepers task).filterMap (Sleeper.own? a) := by
  cases task with
  | play i head =>
    cases htask
    simp only [Task.as, taskSleepers, session?_alone, surroundings_alone]
    cases p.session? a with
    | none => rfl
    | some s =>
      simp only [List.filterMap_append, List.filterMap_filterMap, Effect.own?_sleeper?]
      refine congrArg _ ?_
      exact own_nextSleepers (q := { p.alone a with policy := _ }) (p := { p with policy := _ }) rfl a _
  | pad i payload left =>
    cases htask
    cases left with
    | zero => rfl
    | succ left =>
      have hclock : (p.alone a).clock = p.clock := rfl
      simp only [Task.as, taskSleepers, known?_alone, hclock]
      split
      · rfl
      · split
        · rfl
        · simp [Sleeper.own?, Task.own?, Task.session?, Task.as]
  | countdown i epoch command => rfl
  | release ticket command => cases htask

theorem own_taskSessions (p : Playback) :
    { p.alone a with sessions := (p.alone a).taskSessions (task.as ⟨1⟩) }.session? ⟨1⟩ =
      { p with sessions := p.taskSessions task }.session? a := by
  cases task with
  | play i head =>
    cases htask
    simp only [Task.as, taskSessions, session?_alone, surroundings_alone]
    cases hs : p.session? a with
    | none => exact session?_alone a p
    | some s =>
      have hself := session?_setSession_self hs (head.step p.surroundings s).session
      have halone := session?_setSession_self ((session?_alone a p).trans hs)
        (head.step p.surroundings s).session
      rw [setSession_eq_withSession] at hself halone
      exact halone.trans hself.symm
  | pad i payload left => exact session?_alone a p
  | countdown i epoch command => exact session?_alone a p
  | release ticket command => cases htask

theorem own_taskActive (p : Playback) :
    ((p.alone a).taskActive (task.as ⟨1⟩)).contains ⟨1⟩ = (p.taskActive task).contains a := by
  cases task with
  | play i head =>
    cases htask
    simp only [Task.as, taskActive, session?_alone, surroundings_alone]
    cases p.session? a with
    | none => exact isActive_alone a p
    | some s =>
      by_cases hended : (head.step p.surroundings s).next = .ended
      · simp [hended]
      · simp only [hended, if_false]
        exact isActive_alone a p
  | pad i payload left => exact isActive_alone a p
  | countdown i epoch command => exact isActive_alone a p
  | release ticket command => cases htask

end Own

theorem unflagged_taskPolicy (p : Playback) (task : Task) :
    (p.taskPolicy task).unflagged = p.policy.unflagged := by
  cases task with
  | play id head =>
    simp only [taskPolicy]
    split
    · rfl
    · exact unflagged_foldl_onPolicy id _ p.policy
  | release ticket command =>
    simp only [taskPolicy, Policy.release]
    split
    · exact p.policy.unflagged_setFlag ticket.flag _
    · rfl
  | _ => rfl

/-! ## What a task does beside its session -/

theorem session?_of_mem_taskFront {other : Task} (hmem : other ∈ p.taskFront task) :
    other.session? = task.session? := by
  cases task with
  | play i head =>
    simp only [taskFront] at hmem
    split at hmem
    · cases hmem
    · next s _ =>
      cases hnext : (head.step p.surroundings s).next with
      | again head' =>
        rw [hnext] at hmem
        cases List.mem_singleton.1 hmem
        rfl
      | _ =>
        rw [hnext] at hmem
        cases hmem
  | _ => cases hmem

theorem session?_of_mem_taskBack {other : Task} (hmem : other ∈ p.taskBack task) :
    other.session? = task.session? := by
  cases task with
  | play i head =>
    simp only [taskBack] at hmem
    split at hmem
    · cases hmem
    · next s _ =>
      rcases List.mem_append.1 hmem with hpad | hback
      · obtain ⟨_, rfl⟩ := Effect.eq_pad_of_mem hpad
        rfl
      · cases hnext : (head.step p.surroundings s).next with
        | yield head' =>
          rw [hnext] at hback
          cases List.mem_singleton.1 hback
          rfl
        | _ =>
          rw [hnext] at hback
          cases hback
  | _ => cases hmem

theorem session?_of_mem_taskSleepers (hmem : sleeper ∈ p.taskSleepers task) :
    sleeper.task.session? = task.session? ∨ sleeper.task.session? = none := by
  cases task with
  | play i head =>
    simp only [taskSleepers] at hmem
    split at hmem
    · cases hmem
    · next s _ =>
      rcases List.mem_append.1 hmem with hcountdown | hnext
      · obtain ⟨_, _, rfl⟩ := Effect.eq_countdown_of_mem hcountdown
        exact .inl rfl
      · cases hmove : (head.step p.surroundings s).next with
        | sleep time head' =>
          rw [hmove] at hnext
          cases List.mem_singleton.1 hnext
          exact .inl rfl
        | ended =>
          rw [hmove] at hnext
          obtain ⟨_, _, -, rfl⟩ := eq_release_of_mem hnext
          exact .inr rfl
        | _ =>
          rw [hmove] at hnext
          cases hnext
  | pad i payload left =>
    cases left with
    | zero => cases hmem
    | succ left =>
      simp only [taskSleepers] at hmem
      split at hmem
      · cases hmem
      · split at hmem
        · cases hmem
        · cases List.mem_singleton.1 hmem
          exact .inl rfl
  | countdown i epoch command => cases hmem
  | release ticket command => cases hmem

theorem session?_of_mem_taskEvents (hmem : event ∈ p.taskEvents task) :
    event.session? = task.session? := by
  cases event with
  | sent envelope => exact origin_of_mem_taskEvents hmem
  | reached i milestone =>
    have hreached : .reached i milestone ∈ p.actEvents (.run task) := hmem
    obtain ⟨_, _, hplay, -⟩ := exists_play_of_reached hreached
    cases hplay
    rfl

section Other

variable (htask : task.session? ≠ some a)

include htask

theorem other_taskFront (p : Playback) : (p.taskFront task).filterMap (Task.own? a) = [] := by
  rw [List.filterMap_eq_nil_iff]
  intro other hmem
  refine Task.own?_of_ne ?_
  rw [session?_of_mem_taskFront hmem]
  exact htask

theorem other_taskBack (p : Playback) : (p.taskBack task).filterMap (Task.own? a) = [] := by
  rw [List.filterMap_eq_nil_iff]
  intro other hmem
  refine Task.own?_of_ne ?_
  rw [session?_of_mem_taskBack hmem]
  exact htask

theorem other_taskSleepers (p : Playback) :
    (p.taskSleepers task).filterMap (Sleeper.own? a) = [] := by
  rw [List.filterMap_eq_nil_iff]
  intro sleeper hmem
  have hother : sleeper.task.session? ≠ some a := by
    rcases session?_of_mem_taskSleepers hmem with hsame | hnone
    · rw [hsame]
      exact htask
    · rw [hnone]
      exact Option.some_ne_none a |>.symm
  rw [Sleeper.own?, Task.own?_of_ne hother]
  rfl

theorem other_taskEvents (p : Playback) : (p.taskEvents task).filterMap (Event.own? a) = [] := by
  rw [List.filterMap_eq_nil_iff]
  intro event hmem
  refine if_neg ?_
  rw [session?_of_mem_taskEvents hmem]
  exact htask

theorem other_taskSessions (p : Playback) :
    { p with sessions := p.taskSessions task }.session? a = p.session? a := by
  cases task with
  | play i head =>
    simp only [taskSessions]
    cases p.session? i with
    | none => rfl
    | some s =>
      have hne : a ≠ i := fun heq => htask (congrArg some heq.symm)
      have hset := session?_setSession_of_ne (p := p) hne (head.step p.surroundings s).session
      rw [setSession_eq_withSession] at hset
      exact hset
  | _ => rfl

theorem other_taskActive (p : Playback) :
    (p.taskActive task).contains a = p.isActive a := by
  cases task with
  | play i head =>
    have hne : a ≠ i := fun heq => htask (congrArg some heq.symm)
    simp only [taskActive]
    cases p.session? i with
    | none => rfl
    | some s =>
      by_cases hended : (head.step p.surroundings s).next = .ended
      · simp [hended, isActive, hne]
      · simp only [hended, if_false]
        rfl
  | _ => rfl

end Other

/-! ## A task goes on -/

theorem alone_eq_alone {b : SessionId} (hsettings : q.settings = p.settings)
    (hpolicy : q.policy.unflagged = p.policy.unflagged) (hallowed : q.allowed = p.allowed)
    (hclock : q.clock = p.clock) (hsession : q.session? b = p.session? a)
    (hactive : q.isActive b = p.isActive a) (hheld : q.held.contains b = p.held.contains a)
    (hready : q.ready.filterMap (Task.own? b) = p.ready.filterMap (Task.own? a))
    (hsleepers : q.sleepers.filterMap (Sleeper.own? b) = p.sleepers.filterMap (Sleeper.own? a))
    (hjournal : q.journal.filterMap (Entry.own? b) = p.journal.filterMap (Entry.own? a)) :
    q.alone b = p.alone a := by
  unfold alone
  rw [hsettings, hpolicy, hallowed, hclock, hsession, hactive, hheld, hready, hsleepers, hjournal]

theorem alone_alone (a : SessionId) (p : Playback) : (p.alone a).alone ⟨1⟩ = p.alone a :=
  alone_eq_alone rfl rfl rfl rfl (session?_alone a p) (isActive_alone a p) (contains_held_alone a p)
    (filterMap_own Task.own?_own? a _) (filterMap_own Sleeper.own?_own? a _)
    (filterMap_own Entry.own?_own? a _)

theorem own_written (a : SessionId) (p : Playback) (events : List Event) :
    (p.written events).filterMap (Entry.own? a) =
      ((events.filterMap (Event.own? a)).map (Entry.mk p.clock)).reverse ++
        p.journal.filterMap (Entry.own? a) := by
  rw [written, List.filterMap_append, List.filterMap_reverse, List.filterMap_map, List.map_filterMap]
  rfl

/-- What the session does, it can do as well where nothing but what concerns it is left. -/
theorem alone_runTask_own {before after : List Task} (hready : p.ready = before ++ task :: after)
    (htask : task.session? = some a) :
    (p.alone a).ready = before.filterMap (Task.own? a) ++ task.as ⟨1⟩ ::
        after.filterMap (Task.own? a) ∧
      ({ p with ready := before ++ after }.runTask task).alone a =
        ({ p.alone a with
            ready := before.filterMap (Task.own? a) ++ after.filterMap (Task.own? a) }.runTask
          (task.as ⟨1⟩)).alone ⟨1⟩ := by
  constructor
  · show p.ready.filterMap (Task.own? a) = _
    rw [hready, List.filterMap_append, List.filterMap_cons, Task.own?_of_eq htask]
  · have halone := runTask_take_eq (p.alone a) (before.filterMap (Task.own? a))
      (after.filterMap (Task.own? a)) (task.as ⟨1⟩)
    rw [runTask_take_eq, halone]
    symm
    refine alone_eq_alone rfl ?_ rfl rfl ?_ ?_ (contains_held_alone a p) ?_ ?_ ?_
    · rw [unflagged_taskPolicy, unflagged_taskPolicy]
      rfl
    · exact own_taskSessions htask p
    · exact own_taskActive htask p
    · simp only [List.filterMap_append, own_taskFront htask, own_taskBack htask,
        filterMap_own Task.own?_own?]
    · simp only [List.filterMap_append, own_taskSleepers htask]
      exact congrArg (· ++ _) (filterMap_own Sleeper.own?_own? a p.sleepers)
    · simp only [own_written, own_taskEvents htask]
      exact congrArg (_ ++ ·) (filterMap_own Entry.own?_own? a p.journal)

/-- What others do is nothing to the session. -/
theorem alone_runTask_other {before after : List Task} (hready : p.ready = before ++ task :: after)
    (htask : task.session? ≠ some a) :
    ({ p with ready := before ++ after }.runTask task).alone a = p.alone a := by
  rw [runTask_take_eq]
  refine alone_eq_alone rfl (unflagged_taskPolicy p task) rfl rfl (other_taskSessions htask p)
    (other_taskActive htask p) rfl ?_ ?_ ?_
  · simp only [List.filterMap_append, other_taskFront htask, other_taskBack htask, hready,
      List.filterMap_cons, Task.own?_of_ne htask, List.nil_append, List.append_nil]
  · simp only [List.filterMap_append, other_taskSleepers htask, List.append_nil]
  · simp only [own_written, other_taskEvents htask, List.map_nil, List.reverse_nil,
      List.nil_append]

/-! ## Time passes -/

theorem own_sleepers_filter (a : SessionId) (due : Nat → Bool) (sleepers : List Sleeper) :
    (sleepers.filter (due ·.wake)).filterMap (Sleeper.own? a) =
      (sleepers.filterMap (Sleeper.own? a)).filter (due ·.wake) := by
  induction sleepers with
  | nil => rfl
  | cons sleeper sleepers ih =>
    cases hown : sleeper.task.own? a with
    | none =>
      have hnone : sleeper.own? a = none := by rw [Sleeper.own?, hown]; rfl
      by_cases hdue : due sleeper.wake = true
      · simp [hdue, hnone, ih]
      · simp [hdue, hnone, ih]
    | some task =>
      have hsome : sleeper.own? a = some ⟨sleeper.wake, task⟩ := by rw [Sleeper.own?, hown]; rfl
      by_cases hdue : due sleeper.wake = true
      · simp [hdue, hsome, ih]
      · simp [hdue, hsome, ih]

theorem own_tasks (a : SessionId) (sleepers : List Sleeper) :
    (sleepers.map Sleeper.task).filterMap (Task.own? a) =
      (sleepers.filterMap (Sleeper.own? a)).map Sleeper.task := by
  rw [List.filterMap_map, List.map_filterMap]
  refine List.filterMap_congr fun sleeper _ => ?_
  unfold Sleeper.own?
  cases hown : sleeper.task.own? a <;> simp [hown]

theorem alone_wakeAt (a : SessionId) (p : Playback) (time : Nat) :
    (p.wakeAt time).alone a = (p.alone a).wakeAt time := by
  unfold alone wakeAt
  simp only [List.filterMap_append, own_tasks]
  rw [own_sleepers_filter a (· ≤ time), own_sleepers_filter a (time < ·)]
  rfl

theorem OnTime.alone {time : Nat} (h : p.OnTime time) (a : SessionId) : (p.alone a).OnTime time := by
  obtain ⟨hready, hsleepers⟩ := h
  refine ⟨?_, fun sleeper hmem => ?_⟩
  · show p.ready.filterMap (Task.own? a) = []
    rw [hready]
    rfl
  · obtain ⟨whole, hwhole, hown⟩ := List.mem_filterMap.1 hmem
    obtain ⟨task, -, rfl⟩ := Option.map_eq_some_iff.1 hown
    exact hsleepers whole hwhole

end Playback

end Choreo
