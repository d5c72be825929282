import Choreo.Proofs.Playback.Run

/-!
# What the parts of a step leave alone

Most of what a task does is beside the sessions: it is written into the journal, it changes the flags,
or it is left to tasks that play nothing. `Beside` says so, and every function that a step is made of
is given its lemma here. What the playhead of a session does to its own session is all that remains.
-/

namespace Choreo

inductive Place where
  | ready (head : Playhead)
  | asleep (wake : Nat) (head : Playhead)
  | gone

def Task.head? (id : SessionId) : Task → Option Playhead
  | .play i head => if i = id then some head else none
  | _ => none

@[simp] theorem Task.head?_play_self (id : SessionId) (head : Playhead) :
    (Task.play id head).head? id = some head := if_pos rfl

theorem Task.head?_play_of_ne {i id : SessionId} (head : Playhead) (h : i ≠ id) :
    (Task.play i head).head? id = none := if_neg h

theorem Task.ne_of_head?_eq_none {i id : SessionId} {head : Playhead}
    (htask : (Task.play i head).head? id = none) : i ≠ id := by
  intro heq
  rw [heq, Task.head?_play_self] at htask
  cases htask

theorem Task.eq_play_of_head?_eq_some {id : SessionId} {task : Task} {head : Playhead}
    (htask : task.head? id = some head) : task = .play id head := by
  cases task with
  | play i head' =>
    by_cases hi : i = id
    · rw [hi, Task.head?_play_self] at htask
      rw [hi, Option.some.inj htask]
    · rw [Task.head?_play_of_ne head' hi] at htask
      cases htask
  | _ => cases htask

/-- What an effect of a session writes into the journal. Nothing is sent once it is cancelled. -/
def Effect.event? (id : SessionId) (s : Session) : Effect → Option Event
  | .send command mode =>
    if s.status = .cancelled then none else some (.sent ⟨command, mode, some id⟩)
  | .reach milestone => some (.reached id milestone)
  | _ => none

namespace Playback

def places (p : Playback) (id : SessionId) : List Place :=
  (p.ready.filterMap (Task.head? id)).map .ready ++
    p.sleepers.filterMap fun sleeper => (sleeper.task.head? id).map (.asleep sleeper.wake)

/-- `q` differs from `p` only beside the sessions and their playheads. -/
structure Beside (p q : Playback) : Prop where
  clock : q.clock = p.clock
  settings : q.settings = p.settings
  allowed : q.allowed = p.allowed
  sessions : q.sessions = p.sessions
  active : q.active = p.active
  places : ∀ id, q.places id = p.places id

variable {p q r : Playback} {id i : SessionId} {s : Session} {task : Task}

namespace Beside

theorem refl (p : Playback) : Beside p p := ⟨rfl, rfl, rfl, rfl, rfl, fun _ => rfl⟩

theorem trans (hpq : Beside p q) (hqr : Beside q r) : Beside p r where
  clock := hqr.clock.trans hpq.clock
  settings := hqr.settings.trans hpq.settings
  allowed := hqr.allowed.trans hpq.allowed
  sessions := hqr.sessions.trans hpq.sessions
  active := hqr.active.trans hpq.active
  places := fun id => (hqr.places id).trans (hpq.places id)

theorem session? (h : Beside p q) (id : SessionId) : q.session? id = p.session? id := by
  unfold Playback.session?
  rw [h.sessions]

theorem isActive (h : Beside p q) (id : SessionId) : q.isActive id = p.isActive id := by
  unfold Playback.isActive
  rw [h.active]

end Beside

/-! ## Sending and putting off -/

theorem beside_record (p : Playback) (event : Event) : Beside p (p.record event) :=
  ⟨rfl, rfl, rfl, rfl, rfl, fun _ => rfl⟩

theorem beside_enqueue (p : Playback) (htask : ∀ id, task.head? id = none) :
    Beside p (p.enqueue task) := by
  refine ⟨rfl, rfl, rfl, rfl, rfl, fun id => ?_⟩
  simp [Playback.places, enqueue, htask id]

theorem beside_sleep (p : Playback) (time : Duration) (htask : ∀ id, task.head? id = none) :
    Beside p (p.sleep time task) := by
  refine ⟨rfl, rfl, rfl, rfl, rfl, fun id => ?_⟩
  simp [Playback.places, sleep, htask id]

theorem beside_sendFrom (p : Playback) (id : SessionId) (command : String) (mode : DispatchMode) :
    Beside p (p.sendFrom id command mode) := by
  unfold sendFrom
  split
  · exact .refl p
  · split
    · exact .refl p
    · exact beside_record p _

theorem beside_perform (id : SessionId) (p : Playback) (effect : Effect) :
    Beside p (perform id p effect) := by
  cases effect with
  | send command mode => exact beside_sendFrom p id command mode
  | arm flag => exact ⟨rfl, rfl, rfl, rfl, rfl, fun _ => rfl⟩
  | disarmAll => exact ⟨rfl, rfl, rfl, rfl, rfl, fun _ => rfl⟩
  | pad padding => exact beside_enqueue p fun _ => rfl
  | countdown lead offset =>
    simp only [perform]
    split
    · exact .refl p
    · exact beside_sleep p offset fun _ => rfl
  | reach milestone => exact beside_record p _

theorem beside_foldl_perform (id : SessionId) (effects : List Effect) (p : Playback) :
    Beside p (effects.foldl (perform id) p) := by
  induction effects generalizing p with
  | nil => exact .refl p
  | cons effect effects ih => exact (beside_perform id p effect).trans (ih _)

theorem beside_planRelease (p : Playback) (id : SessionId) (flag : AutoFlag) (grace : Duration)
    (command : String) : Beside p (p.planRelease id flag grace command) := by
  unfold planRelease
  split
  · exact .refl p
  · exact beside_sleep p grace fun _ => rfl

theorem beside_runPad (p : Playback) (id : SessionId) (payload : String) (left : Nat) :
    Beside p (p.runPad id payload left) := by
  unfold runPad
  split
  · exact .refl p
  · split
    · exact .refl p
    · split
      · exact .refl p
      · exact (beside_sendFrom p id payload .noQueue).trans (beside_sleep _ _ fun _ => rfl)

theorem beside_runCountdown (p : Playback) (id : SessionId) (epoch : Nat) (command : String) :
    Beside p (p.runCountdown id epoch command) := by
  unfold runCountdown
  split
  · split
    · exact .refl p
    · split
      · exact beside_sendFrom p id command .queue
      · exact .refl p
  · exact .refl p

theorem beside_runRelease (p : Playback) (ticket : Ticket) (command : String) :
    Beside p (p.runRelease ticket command) := by
  have hpolicy : Beside p { p with policy := (p.policy.release ticket).1 } :=
    ⟨rfl, rfl, rfl, rfl, rfl, fun _ => rfl⟩
  simp only [runRelease]
  split
  · exact hpolicy.trans (beside_record _ _)
  · exact hpolicy

theorem beside_runTask (p : Playback) (htask : ∀ id, task.head? id = none) :
    Beside p (p.runTask task) := by
  cases task with
  | play i head => exact absurd (htask i) (by simp)
  | pad i payload left => exact beside_runPad p i payload left
  | countdown i epoch command => exact beside_runCountdown p i epoch command
  | release ticket command => exact beside_runRelease p ticket command

/-! ## Taking a task from those that may go on -/

section Taking

variable {before after : List Task}

theorem places_of_ready (hready : p.ready = before ++ task :: after) :
    p.places id = (before.filterMap (Task.head? id)).map .ready ++
      ((task.head? id).toList.map .ready ++ ((after.filterMap (Task.head? id)).map .ready ++
        p.sleepers.filterMap fun sleeper =>
          (sleeper.task.head? id).map (.asleep sleeper.wake))) := by
  rw [places, hready, List.filterMap_append, List.filterMap_cons]
  cases task.head? id <;> simp

theorem places_take_of_head?_eq_none (hready : p.ready = before ++ task :: after)
    (htask : task.head? id = none) :
    { p with ready := before ++ after }.places id = p.places id := by
  rw [places_of_ready hready, htask]
  simp [places]

theorem places_take_self {place : Place} {head : Playhead}
    (hready : p.ready = before ++ .play id head :: after) (hplace : p.places id = [place]) :
    place = .ready head ∧ { p with ready := before ++ after }.places id = [] := by
  rw [places_of_ready hready, Task.head?_play_self] at hplace
  cases hbefore : before.filterMap (Task.head? id) with
  | cons _ _ => simp [hbefore] at hplace
  | nil =>
    simp only [hbefore, List.map_nil, Option.toList_some, List.map_cons, List.nil_append,
      List.cons_append, List.cons.injEq, List.append_eq_nil_iff, List.map_eq_nil_iff] at hplace
    obtain ⟨hhead, hafter, hsleepers⟩ := hplace
    refine ⟨hhead.symm, ?_⟩
    simp only [places, List.filterMap_append, hbefore, hafter, hsleepers, List.nil_append,
      List.map_nil]

end Taking

end Playback

end Choreo
