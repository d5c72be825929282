import Choreo.Playback.Control

/-!
# Runs of playback

A run begins before anything was launched. In each step a request from outside is served, a task that
may go on does so, whichever of them it is, or time passes. A run keeps its history, so that a
statement can look back at everything that happened.

In a punctual run time passes only while no task may go on, and it stops wherever a task wakes up.
The functions that play in a fixed order, and those that act on many sessions, make punctual runs.

Tasks are scheduled cooperatively: none is suspended but where it waits. A run may cut in between the
steps of a playhead all the same, so what is proved of every run does not rest on the scheduling. What
does is proved of cooperative runs.
-/

namespace Choreo

/-- Whether the task is a playhead on its way to its next command, where it waits for nothing. -/
def Task.underway : Task → Bool
  | .play _ head => head.stage = .turn
  | _ => false

namespace Playback

/-! ## Steps -/

inductive Request where
  | launch (script : Script) (start : Start)
  | pause (id : SessionId)
  | resume (id : SessionId)
  | seek (id : SessionId) (line : Nat)
  | cancel (id : SessionId)
  | hold (id : SessionId)
  | releaseHold (id : SessionId)
  | allow (allowed : Bool)
  | setRate (rate : TickRate)
  | setIgnoreLooping (ignore : Bool)
  | setIgnoreCountdown (ignore : Bool)
  | arm (id : SessionId) (flag : AutoFlag)
  | disarmAll

def serve (p : Playback) : Request → Playback × Bool
  | .launch script start => ((p.launch script start).1, (p.launch script start).2.isOk)
  | .pause id => p.pause id
  | .resume id => p.resume id
  | .seek id line => p.seek id line
  | .cancel id => p.cancel id
  | .hold id => (p.hold id, true)
  | .releaseHold id => p.releaseHold id
  | .allow allowed => (p.allow allowed, true)
  | .setRate rate => (p.setRate rate, true)
  | .setIgnoreLooping ignore => (p.setIgnoreLooping ignore, true)
  | .setIgnoreCountdown ignore => (p.setIgnoreCountdown ignore, true)
  | .arm id flag => (p.arm id flag, true)
  | .disarmAll => (p.disarmAll, true)

inductive Act where
  | serve (request : Request) (granted : Bool)
  | run (task : Task)
  | pass (time : Nat)

/-- The clock may go on to a time without leaving anything undone that is due before. -/
def OnTime (p : Playback) (time : Nat) : Prop :=
  p.ready = [] ∧ ∀ sleeper ∈ p.sleepers, time ≤ sleeper.wake

inductive Step (punctual : Prop) (p : Playback) : Act → Playback → Prop where
  | serve (request : Request) :
      Step punctual p (.serve request (p.serve request).2) (p.serve request).1
  | run {before after : List Task} {task : Task} (hready : p.ready = before ++ task :: after) :
      Step punctual p (.run task) ({ p with ready := before ++ after }.runTask task)
  | pass {time : Nat} (htime : punctual → p.OnTime time) :
      Step punctual p (.pass time) (p.wakeAt time)

structure Occurrence where
  before : Playback
  act : Act
  after : Playback

/-- The runs under some settings: the history, the latest first, and the playback after it. -/
inductive Run (punctual : Prop) (settings : Settings) : List Occurrence → Playback → Prop where
  | start : Run punctual settings [] (Playback.start settings)
  | step {history : List Occurrence} {p q : Playback} {act : Act}
      (run : Run punctual settings history p) (hstep : Step punctual p act q) :
      Run punctual settings (⟨p, act, q⟩ :: history) q

/-- A playhead that is on its way is the one to go on. -/
def KeepsFloor (p : Playback) (act : Act) : Prop :=
  ∀ task ∈ p.ready, task.underway = true → act = .run task

/-- The runs in which nothing comes between two steps of a playhead unless it waits there. -/
inductive CooperativeRun (punctual : Prop) (settings : Settings) :
    List Occurrence → Playback → Prop where
  | start : CooperativeRun punctual settings [] (Playback.start settings)
  | step {history : List Occurrence} {p q : Playback} {act : Act}
      (run : CooperativeRun punctual settings history p) (hstep : Step punctual p act q)
      (hfloor : p.KeepsFloor act) : CooperativeRun punctual settings (⟨p, act, q⟩ :: history) q

variable {punctual : Prop} {settings : Settings} {history later earlier : List Occurrence}
variable {p q : Playback} {act : Act} {o : Occurrence}

theorem CooperativeRun.run (run : CooperativeRun punctual settings history p) :
    Run punctual settings history p := by
  induction run with
  | start => exact .start
  | step _ hstep _ ih => exact ih.step hstep

theorem Step.eq_of_run {task : Task} (hstep : Step punctual p (.run task) q) :
    ∃ before after, p.ready = before ++ task :: after ∧
      q = { p with ready := before ++ after }.runTask task := by
  cases hstep with
  | @run before after _ hready => exact ⟨before, after, hready, rfl⟩

/-- A run can be cut before each of its steps. -/
theorem Run.cut (run : Run punctual settings (later ++ o :: earlier) p) :
    Run punctual settings earlier o.before ∧ Step punctual o.before o.act o.after := by
  induction later generalizing p with
  | nil =>
    cases run with
    | step run hstep => exact ⟨run, hstep⟩
  | cons _ later ih =>
    cases run with
    | step run _ => exact ih run

/-! ## What a step writes -/

def Occurrence.events (o : Occurrence) : List Event :=
  ((o.after.journal.take (o.after.journal.length - o.before.journal.length)).map
    Entry.event).reverse

def written (p : Playback) (events : List Event) : List Entry :=
  (events.map (Entry.mk p.clock)).reverse ++ p.journal

theorem events_of_written {events : List Event} (h : q.journal = p.written events) :
    Occurrence.events ⟨p, act, q⟩ = events := by
  have hlength : q.journal.length - p.journal.length =
      (events.map (Entry.mk p.clock)).reverse.length := by
    rw [h, written, List.length_append, Nat.add_sub_cancel]
  have hevent : Entry.event ∘ Entry.mk p.clock = id := rfl
  rw [Occurrence.events]
  simp only
  rw [hlength, h, written, List.take_left, List.map_reverse, List.reverse_reverse, List.map_map,
    hevent, List.map_id]

/-! ## Playing in a fixed order -/

def nextAct (p : Playback) : Act :=
  match p.ready with
  | task :: _ => .run task
  | [] => .pass (p.nextWake?.getD p.clock)

theorem step_of_next? {limit : Nat} (h : p.next? limit = some q) :
    Step punctual p p.nextAct q := by
  unfold next? at h
  unfold nextAct
  cases hready : p.ready with
  | cons task rest =>
    simp only [hready, Option.some.injEq] at h
    rw [← h]
    exact @Step.run punctual p [] rest task hready
  | nil =>
    simp only [hready] at h
    cases hwake : p.nextWake? with
    | none => simp [hwake] at h
    | some wake =>
      simp only [hwake] at h
      split at h
      · cases h
        refine .pass fun _ => ⟨hready, fun sleeper hsleeper => ?_⟩
        have hmem : sleeper.wake ∈ p.sleepers.map Sleeper.wake := List.mem_map_of_mem hsleeper
        exact (List.min?_eq_some_iff.1 hwake).2 _ hmem
      · cases h

/-- Lets at most `fuel` things happen, and keeps the history. -/
def follow (limit : Playback → Nat) : Nat → List Occurrence → Playback →
    List Occurrence × Playback
  | 0, history, p => (history, p)
  | fuel + 1, history, p =>
    match p.next? (limit p) with
    | none => (history, p)
    | some q => follow limit fuel (⟨p, p.nextAct, q⟩ :: history) q

theorem follow_snd (limit : Playback → Nat) (fuel : Nat) (history : List Occurrence)
    (p : Playback) : (follow limit fuel history p).2 = p.run limit fuel := by
  fun_induction follow limit fuel history p with
  | case1 => rfl
  | case2 history p fuel h => simp [Playback.run, h]
  | case3 history p fuel q h ih => simp [Playback.run, h, ih]

theorem Run.follow (run : Run punctual settings history p) (limit : Playback → Nat) (fuel : Nat) :
    Run punctual settings (follow limit fuel history p).1 (follow limit fuel history p).2 := by
  fun_induction Playback.follow limit fuel history p with
  | case1 => exact run
  | case2 => exact run
  | case3 history p fuel q h ih => exact ih (run.step (step_of_next? h))

def ask (request : Request) (played : List Occurrence × Playback) :
    List Occurrence × Playback :=
  (⟨played.2, .serve request (played.2.serve request).2, (played.2.serve request).1⟩ :: played.1,
    (played.2.serve request).1)

theorem Run.ask {played : List Occurrence × Playback}
    (run : Run punctual settings played.1 played.2) (request : Request) :
    Run punctual settings (ask request played).1 (ask request played).2 :=
  run.step (.serve request)

/-- The run that begins with the launch of a script. -/
theorem Run.launched (punctual : Prop) (settings : Settings) (script : Script) (start : Start) :
    Run punctual settings (Playback.ask (.launch script start) ([], Playback.start settings)).1
      (Playback.ask (.launch script start) ([], Playback.start settings)).2 :=
  @Run.ask punctual settings ([], Playback.start settings) .start (.launch script start)

def wait (time : Nat) (played : List Occurrence × Playback) : List Occurrence × Playback :=
  (⟨played.2, .pass time, played.2.wakeAt time⟩ :: played.1, played.2.wakeAt time)

theorem Run.wait {played : List Occurrence × Playback}
    (run : Run punctual settings played.1 played.2) (time : Nat)
    (htime : punctual → played.2.OnTime time) :
    Run punctual settings (wait time played).1 (wait time played).2 :=
  run.step (.pass htime)

instance (p : Playback) (time : Nat) : Decidable (p.OnTime time) :=
  inferInstanceAs (Decidable (p.ready = [] ∧ ∀ sleeper ∈ p.sleepers, time ≤ sleeper.wake))

def Reachable (punctual : Prop) (settings : Settings) (p : Playback) : Prop :=
  ∃ history, Run punctual settings history p

theorem Reachable.serve (h : Reachable punctual settings p) (request : Request) :
    Reachable punctual settings (p.serve request).1 := by
  obtain ⟨history, run⟩ := h
  exact ⟨_, run.step (.serve request)⟩

theorem Reachable.run (h : Reachable punctual settings p) (limit : Playback → Nat) (fuel : Nat) :
    Reachable punctual settings (p.run limit fuel) := by
  obtain ⟨history, run⟩ := h
  rw [← follow_snd limit fuel history p]
  exact ⟨_, run.follow limit fuel⟩

theorem onTime_of_next?_eq_none {time : Nat} (h : p.next? time = none) :
    p.ready = [] ∧ ∀ sleeper ∈ p.sleepers, time < sleeper.wake := by
  unfold next? at h
  cases hready : p.ready with
  | cons task rest => simp [hready] at h
  | nil =>
    refine ⟨rfl, fun sleeper hsleeper => ?_⟩
    simp only [hready] at h
    cases hwake : p.nextWake? with
    | none =>
      have hempty : p.sleepers = [] := by
        simpa [nextWake?, List.min?_eq_none_iff] using hwake
      rw [hempty] at hsleeper
      cases hsleeper
    | some wake =>
      have hlt : time < wake := by
        simp only [hwake] at h
        split at h
        · cases h
        · omega
      have hmem : sleeper.wake ∈ p.sleepers.map Sleeper.wake := List.mem_map_of_mem hsleeper
      exact Nat.lt_of_lt_of_le hlt ((List.min?_eq_some_iff.1 hwake).2 _ hmem)

/-- Letting time pass is a run, provided that the fuel is enough for everything that is due. -/
theorem Reachable.advance (h : Reachable punctual settings p) (fuel millis : Nat)
    (hfuel : (p.run (fun _ => p.clock + millis) fuel).next? (p.clock + millis) = none) :
    Reachable punctual settings (p.advance fuel millis) := by
  obtain ⟨history, run⟩ := h.run (fun _ => p.clock + millis) fuel
  obtain ⟨hready, hsleepers⟩ := onTime_of_next?_eq_none hfuel
  have hdue : (p.run (fun _ => p.clock + millis) fuel).sleepers.filter
      (·.wake ≤ p.clock + millis) = [] := by
    rw [List.filter_eq_nil_iff]
    intro sleeper hsleeper
    have hlater := hsleepers sleeper hsleeper
    simp only [decide_eq_true_eq]
    omega
  have hkept : (p.run (fun _ => p.clock + millis) fuel).sleepers.filter
      (p.clock + millis < ·.wake) = (p.run (fun _ => p.clock + millis) fuel).sleepers := by
    rw [List.filter_eq_self]
    intro sleeper hsleeper
    simpa using hsleepers sleeper hsleeper
  have hwake : p.advance fuel millis =
      (p.run (fun _ => p.clock + millis) fuel).wakeAt (p.clock + millis) := by
    simp only [Playback.advance, wakeAt, hdue, hkept, List.map_nil, List.append_nil]
  rw [hwake]
  exact ⟨_, run.step (.pass fun _ =>
    ⟨hready, fun sleeper hsleeper => Nat.le_of_lt (hsleepers sleeper hsleeper)⟩)⟩

/-! ## Acting on many sessions -/

theorem Reachable.togglePause (h : Reachable punctual settings p) (id : SessionId) :
    Reachable punctual settings (p.togglePause id).1 := by
  have hpause := h.serve (.pause id)
  have hresume := hpause.serve (.resume id)
  simp only [Playback.serve] at hpause hresume
  unfold Playback.togglePause
  split
  · next heq => simpa [heq] using hpause
  · next heq => simpa [heq] using hresume

theorem Reachable.forEach {act : Playback → SessionId → Playback × Bool}
    (hact : ∀ p id, Reachable punctual settings p → Reachable punctual settings (act p id).1)
    (h : Reachable punctual settings p) (ids : List SessionId) :
    Reachable punctual settings (p.forEach act ids).1 := by
  induction ids generalizing p with
  | nil => exact h
  | cons id ids ih => exact ih (hact p id h)

theorem Reachable.cancelAll (h : Reachable punctual settings p) :
    Reachable punctual settings p.cancelAll.1 :=
  h.forEach (fun _ id hp => hp.serve (.cancel id)) _

theorem changeFound_keeps (p : Playback) (id : SessionId) (act : Session → Option Session) :
    (p.changeFound id act).1.clock = p.clock ∧ (p.changeFound id act).1.active = p.active := by
  unfold changeFound
  split
  · exact ⟨rfl, rfl⟩
  · unfold setSession
    split <;> exact ⟨rfl, rfl⟩

/-- Sessions that are active are found again, however many were changed before them. -/
theorem forEach_changeFound {change : Instant → Session → Option Session} {now : Instant}
    (hnow : p.now = now) {ids : List SessionId} (hactive : ∀ id ∈ ids, p.isActive id = true) :
    p.forEach (fun p id => p.changeFound id (change now)) ids =
      p.forEach (fun p id => p.change id (change p.now)) ids := by
  induction ids generalizing p with
  | nil => rfl
  | cons id ids ih =>
    obtain ⟨hclock, hsame⟩ := p.changeFound_keeps id (change now)
    have hfirst : p.change id (change p.now) = p.changeFound id (change now) := by
      rw [Playback.change, if_pos (hactive id List.mem_cons_self), hnow]
    have hrest := ih (p := (p.changeFound id (change now)).1)
      (by rw [Playback.now, hclock]; exact hnow)
      (fun other hother => by
        rw [isActive, hsame]
        exact hactive other (List.mem_cons_of_mem _ hother))
    simp only [forEach, hfirst, hrest]

theorem changeScript_eq (p : Playback) (script : ScriptId)
    (change : Instant → Session → Option Session) :
    p.changeScript script change =
      p.forEach (fun p id => p.change id (change p.now)) (p.findByScript script) :=
  forEach_changeFound rfl fun _ hid => List.contains_iff_mem.2 (List.mem_filter.1 hid).1

theorem pauseScript_eq (p : Playback) (script : ScriptId) :
    p.pauseScript script = p.forEach pause (p.findByScript script) :=
  p.changeScript_eq script _

theorem resumeScript_eq (p : Playback) (script : ScriptId) :
    p.resumeScript script = p.forEach resume (p.findByScript script) :=
  p.changeScript_eq script _

theorem Reachable.pauseScript (h : Reachable punctual settings p) (script : ScriptId) :
    Reachable punctual settings (p.pauseScript script).1 := by
  rw [pauseScript_eq]
  exact h.forEach (fun _ id hp => hp.serve (.pause id)) _

theorem Reachable.resumeScript (h : Reachable punctual settings p) (script : ScriptId) :
    Reachable punctual settings (p.resumeScript script).1 := by
  rw [resumeScript_eq]
  exact h.forEach (fun _ id hp => hp.serve (.resume id)) _

theorem Reachable.cancelScript (h : Reachable punctual settings p) (script : ScriptId) :
    Reachable punctual settings (p.cancelScript script).1 :=
  h.forEach (fun _ id hp => hp.serve (.cancel id)) _

end Playback

end Choreo
