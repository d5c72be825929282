import Choreo.Proofs.Playback.Lone

/-!
# Sessions do not disturb each other

What becomes of a session depends on what is asked of it, on what is asked of all, and on when, and on
the order in which its own tasks go on where several of them may. Two runs that agree on this may differ
in all that they do with other sessions and with the flags: they send the same on behalf of the session
and leave it in the same state, at every moment.

It takes no less. Within one millisecond it can be told apart which task of the session went first and
what came before a request, and a session that someone keeps an eye on pads on after its end.
-/

namespace Choreo.Playback

variable {settings : Settings} {history : List Occurrence} {p q : Playback} {act : Act}
variable {a b : SessionId}

/-! ## What is asked, and when -/

/-- The session has nothing left to do in the millisecond. -/
def Idle (a : SessionId) (p : Playback) : Prop :=
  (∀ task ∈ p.ready, task.session? ≠ some a) ∧
    ∀ sleeper ∈ p.sleepers, sleeper.task.session? = some a → p.clock < sleeper.wake

instance (a : SessionId) (p : Playback) : Decidable (p.Idle a) :=
  inferInstanceAs (Decidable ((∀ task ∈ p.ready, task.session? ≠ some a) ∧
    ∀ sleeper ∈ p.sleepers, sleeper.task.session? = some a → p.clock < sleeper.wake))

def moment (a : SessionId) (p : Playback) (turns : Nat) : Moment :=
  ⟨p.clock, if p.Idle a then none else some turns⟩

/-- Whether a task of the session goes on or wakes up in a step. -/
def Occurrence.stirs (a : SessionId) (o : Occurrence) : Bool :=
  match o.act with
  | .run task => task.session? = some a
  | .pass time => o.before.sleepers.any fun sleeper =>
      sleeper.task.session? = some a ∧ sleeper.wake ≤ time
  | .serve _ _ => false

def turnsOf (a : SessionId) (history : List Occurrence) : Nat := history.countP (·.stirs a)

/-- What is asked in a step, under the first number, if it concerns the session. -/
def Occurrence.asked? (a : SessionId) (o : Occurrence) : Option Request :=
  match o.act with
  | .serve request _ => request.own? a o.before
  | _ => none

/-- What was asked of the session or of all, the oldest first, and when. -/
def agenda (a : SessionId) : List Occurrence → List (Moment × Request)
  | [] => []
  | o :: earlier =>
    agenda a earlier ++ (o.asked? a).toList.map (Prod.mk (o.before.moment a (turnsOf a earlier)))

/-- Of the tasks of the session, the one goes on that has so many others in front of it. -/
def Occurrence.Overtakes (a : SessionId) (n : Nat) (o : Occurrence) : Prop :=
  ∀ task, o.act = .run task → task.session? = some a →
    ∃ before after, o.before.ready = before ++ task :: after ∧
      before.countP (·.session? = some a) = n ∧
      o.after = { o.before with ready := before ++ after }.runTask task

/-- The tasks of the session go on in an order, which tells how many of them a turn passes over. -/
def GoesBy (a : SessionId) (order : Nat → Nat) : List Occurrence → Prop
  | [] => True
  | o :: earlier => o.Overtakes a (order (turnsOf a earlier)) ∧ GoesBy a order earlier

/-- What was sent on behalf of a session, the oldest first, and when. -/
def sentBy (a : SessionId) (p : Playback) : List (Nat × String × DispatchMode) :=
  p.sent.filterMap fun (time, envelope) =>
    if envelope.origin = some a then some (time, envelope.command, envelope.mode) else none

/-! ## What of this is seen where nothing is beside the session -/

theorem ready_alone_eq_nil_iff (a : SessionId) (p : Playback) :
    (p.alone a).ready = [] ↔ ∀ task ∈ p.ready, task.session? ≠ some a := by
  show p.ready.filterMap (Task.own? a) = [] ↔ _
  rw [List.filterMap_eq_nil_iff]
  refine forall₂_congr fun task _ => ?_
  unfold Task.own?
  split <;> simp_all

theorem mem_sleepers_alone_iff {a : SessionId} {p : Playback} {sleeper : Sleeper} :
    sleeper ∈ (p.alone a).sleepers ↔ ∃ whole ∈ p.sleepers, whole.task.session? = some a ∧
      sleeper = ⟨whole.wake, whole.task.as ⟨1⟩⟩ := by
  show sleeper ∈ p.sleepers.filterMap (Sleeper.own? a) ↔ _
  rw [List.mem_filterMap]
  refine exists_congr fun whole => and_congr_right fun _ => ?_
  unfold Sleeper.own? Task.own?
  split <;> simp_all [eq_comm]

theorem quiet_alone_iff (a : SessionId) (p : Playback) (turns : Nat) :
    Lone.Quiet ⟨p.alone a, turns⟩ ↔ p.Idle a := by
  refine and_congr (ready_alone_eq_nil_iff a p) ⟨fun hlater sleeper hmem hown => ?_, ?_⟩
  · exact hlater ⟨sleeper.wake, sleeper.task.as ⟨1⟩⟩
      (mem_sleepers_alone_iff.2 ⟨sleeper, hmem, hown, rfl⟩)
  · rintro hlater sleeper hmem
    obtain ⟨whole, hwhole, hown, rfl⟩ := mem_sleepers_alone_iff.1 hmem
    exact hlater whole hwhole hown

theorem moment_alone (a : SessionId) (p : Playback) (turns : Nat) :
    Lone.moment ⟨p.alone a, turns⟩ = p.moment a turns := by
  simp only [Lone.moment, moment, quiet_alone_iff]
  rfl

theorem any_sleepers_alone (a : SessionId) (p : Playback) (time : Nat) :
    (p.alone a).sleepers.any (·.wake ≤ time) =
      p.sleepers.any fun sleeper => sleeper.task.session? = some a ∧ sleeper.wake ≤ time := by
  rw [Bool.eq_iff_iff, List.any_eq_true, List.any_eq_true]
  constructor
  · rintro ⟨sleeper, hmem, hdue⟩
    obtain ⟨whole, hwhole, hown, rfl⟩ := mem_sleepers_alone_iff.1 hmem
    exact ⟨whole, hwhole, by simpa [hown] using hdue⟩
  · rintro ⟨whole, hwhole, hdue⟩
    obtain ⟨hown, hdue⟩ := of_decide_eq_true hdue
    exact ⟨_, mem_sleepers_alone_iff.2 ⟨whole, hwhole, hown, rfl⟩, decide_eq_true hdue⟩

theorem length_own (a : SessionId) (tasks : List Task) :
    (tasks.filterMap (Task.own? a)).length = tasks.countP (·.session? = some a) := by
  rw [List.length_filterMap_eq_countP]
  refine List.countP_congr fun task _ => ?_
  unfold Task.own?
  split <;> simp_all

theorem sentBy_alone (a : SessionId) (p : Playback) : (p.alone a).sentBy ⟨1⟩ = p.sentBy a := by
  show List.filterMap _ (List.filterMap _ (p.journal.filterMap (Entry.own? a)).reverse) = _
  simp only [sentBy, sent, ← List.filterMap_reverse, List.filterMap_filterMap]
  refine List.filterMap_congr fun entry _ => ?_
  cases hevent : entry.event with
  | sent envelope =>
    by_cases hown : envelope.origin = some a
    · simp [Entry.own?, Event.own?, Event.session?, Event.as, hevent, hown]
    · simp [Entry.own?, Event.own?, Event.session?, hevent, hown]
  | reached i milestone =>
    by_cases hown : i = a
    · simp [Entry.own?, Event.own?, Event.session?, Event.as, hevent, hown]
    · simp [Entry.own?, Event.own?, Event.session?, hevent, hown]

theorem alone_start (settings : Settings) (a b : SessionId) :
    (start settings).alone a = (start settings).alone b :=
  alone_eq_alone rfl rfl rfl rfl
    ((lacks_start settings a).session.trans (lacks_start settings b).session.symm) rfl rfl rfl rfl rfl

/-! ## Steps and runs -/

/-- A step is one that the session could take by itself, or it is nothing to the session. -/
theorem Step.lives {order : Nat → Nat} {turns : Nat} (hstep : Step True p act q)
    (hturn : Occurrence.Overtakes a (order turns) ⟨p, act, q⟩)
    (hfree : p.session? a = none → p.isActive a = false) :
    Lone.Lives order ⟨p.alone a, turns⟩
      ((Occurrence.asked? a ⟨p, act, q⟩).toList.map (Prod.mk (p.moment a turns)))
      ⟨q.alone a, turns + if Occurrence.stirs a ⟨p, act, q⟩ then 1 else 0⟩ := by
  cases hstep with
  | serve request =>
    cases hconcerns : request.concerns a p with
    | true =>
      have hasked : Occurrence.asked? a ⟨p, .serve request (p.serve request).2,
          (p.serve request).1⟩ = some (request.as ⟨1⟩) := if_pos hconcerns
      rw [hasked, alone_serve_of_concerns hconcerns, ← moment_alone]
      exact .ask (.done _)
    | false =>
      have hasked : Occurrence.asked? a ⟨p, .serve request (p.serve request).2,
          (p.serve request).1⟩ = none := if_neg (by rw [hconcerns]; decide)
      rw [hasked, alone_serve_of_not_concerns hfree hconcerns]
      exact .done _
  | @run before after task hready =>
    by_cases htask : task.session? = some a
    · obtain ⟨first, rest, hready', hcount, hafter⟩ := hturn task rfl htask
      obtain ⟨hown, halone⟩ := alone_runTask_own hready' htask
      have horder := (length_own a first).trans hcount
      have hstirs : Occurrence.stirs a
          ⟨p, .run task, { p with ready := before ++ after }.runTask task⟩ = true :=
        decide_eq_true htask
      simp only at hafter
      rw [hstirs, hafter, halone]
      exact .run hown horder (.done _)
    · have hstirs : Occurrence.stirs a
          ⟨p, .run task, { p with ready := before ++ after }.runTask task⟩ = false :=
        decide_eq_false htask
      rw [hstirs, alone_runTask_other hready htask]
      exact .done _
  | @pass time htime =>
    have hpass : Lone.pass ⟨p.alone a, turns⟩ time =
        ⟨(p.wakeAt time).alone a, turns + if Occurrence.stirs a ⟨p, .pass time, p.wakeAt time⟩
          then 1 else 0⟩ := by
      rw [Lone.pass, alone_wakeAt, any_sleepers_alone]
      rfl
    rw [← hpass]
    exact .pass ((htime trivial).alone a) (.done _)

theorem Run.lives {order : Nat → Nat} (run : Run True settings history p)
    (horder : GoesBy a order history) :
    Lone.Lives order ⟨(Playback.start settings).alone a, 0⟩ (agenda a history)
      ⟨p.alone a, turnsOf a history⟩ := by
  induction run with
  | start => exact .done _
  | @step history p q act run hstep ih =>
    have hfree : p.session? a = none → p.isActive a = false := by
      intro hnone
      rcases run.apart a with ⟨hlacks, -⟩ | ⟨solo, hshows, -⟩
      · exact hlacks.active
      · rw [hshows.session] at hnone
        cases hnone
    have hall := (ih horder.2).trans (hstep.lives horder.1 hfree)
    rw [turnsOf, List.countP_cons]
    exact hall

/-! ## Playing in a fixed order -/

theorem overtakes_of_not_run {n : Nat} (h : ∀ task, act ≠ .run task) :
    Occurrence.Overtakes a n ⟨p, act, q⟩ :=
  fun task hact => absurd hact (h task)

theorem overtakes_of_first {rest : List Task} {task : Task} (hready : p.ready = task :: rest) :
    Occurrence.Overtakes a 0 ⟨p, .run task, { p with ready := rest }.runTask task⟩ := by
  intro other hact _
  cases hact
  exact ⟨[], rest, hready, rfl, rfl⟩

theorem overtakes_of_next? {limit : Nat} (h : p.next? limit = some q) :
    Occurrence.Overtakes a 0 ⟨p, p.nextAct, q⟩ := by
  unfold next? at h
  unfold nextAct
  cases hready : p.ready with
  | cons task rest =>
    simp only [hready, Option.some.injEq] at h
    rw [← h]
    exact overtakes_of_first hready
  | nil => exact overtakes_of_not_run nofun

/-- A punctual run in which the tasks of a session go on in the order in which they came. -/
structure Orderly (a : SessionId) (settings : Settings) (played : List Occurrence × Playback) :
    Prop where
  run : Run True settings played.1 played.2
  goesBy : GoesBy a (fun _ => 0) played.1

namespace Orderly

variable {played : List Occurrence × Playback}

theorem start (a : SessionId) (settings : Settings) :
    Orderly a settings ([], Playback.start settings) :=
  ⟨.start, trivial⟩

theorem ask (h : Orderly a settings played) (request : Request) :
    Orderly a settings (ask request played) :=
  ⟨h.run.ask request, overtakes_of_not_run nofun, h.goesBy⟩

theorem follow (h : Orderly a settings played) (limit : Playback → Nat) (fuel : Nat) :
    Orderly a settings (follow limit fuel played.1 played.2) := by
  refine ⟨h.run.follow limit fuel, ?_⟩
  obtain ⟨history, p⟩ := played
  have hturn : GoesBy a (fun _ => 0) history := h.goesBy
  clear h
  simp only
  fun_induction Playback.follow limit fuel history p with
  | case1 => exact hturn
  | case2 => exact hturn
  | case3 history p fuel q h ih => exact ih ⟨overtakes_of_next? h, hturn⟩

end Orderly

/-! ## Any order -/

theorem GoesBy.congr {order order' : Nat → Nat} (h : GoesBy a order history)
    (hsame : ∀ turn < turnsOf a history, order' turn = order turn) : GoesBy a order' history := by
  induction history with
  | nil => trivial
  | cons o earlier ih =>
    have hcount : turnsOf a (o :: earlier) = turnsOf a earlier + if o.stirs a then 1 else 0 :=
      List.countP_cons
    refine ⟨fun task hact hown => ?_, ih h.2 fun turn hturn => hsame turn (by omega)⟩
    have hstirs : o.stirs a = true := by
      rw [Occurrence.stirs, hact]
      exact decide_eq_true hown
    rw [hsame (turnsOf a earlier) (by rw [hcount, hstirs]; simp)]
    exact h.1 task hact hown

/-- In whatever order the tasks of a session went on, there is one that tells it. -/
theorem Run.exists_goesBy {punctual : Prop} (run : Run punctual settings history p)
    (a : SessionId) : ∃ order, GoesBy a order history := by
  induction run with
  | start => exact ⟨fun _ => 0, trivial⟩
  | @step history p q act run hstep ih =>
    obtain ⟨order, horder⟩ := ih
    have hkept (n : Nat) :
        GoesBy a (fun turn => if turn < turnsOf a history then order turn else n) history :=
      horder.congr fun turn hturn => if_pos hturn
    cases hstep with
    | @run before after task hready =>
      refine ⟨_, fun other hact hown => ?_, hkept (before.countP (·.session? = some a))⟩
      cases hact
      exact ⟨before, after, hready, (if_neg (Nat.lt_irrefl _)).symm, rfl⟩
    | serve request => exact ⟨_, overtakes_of_not_run nofun, hkept 0⟩
    | pass => exact ⟨_, overtakes_of_not_run nofun, hkept 0⟩

/-! ## Two runs -/

/-- If the same is asked of two sessions of two runs, and of all in these runs, at the same moments, and
the tasks of either go on in the same order, then at every moment the same was sent on behalf of the two
sessions, and they are the same but for their numbers, whatever happens to other sessions and to the
flags. -/
theorem Run.undisturbed {history' : List Occurrence} {order : Nat → Nat}
    (run : Run True settings history p) (run' : Run True settings history' q)
    (horder : GoesBy a order history) (horder' : GoesBy b order history')
    (hagenda : agenda a history = agenda b history')
    (hmoment : p.moment a (turnsOf a history) = q.moment b (turnsOf b history')) :
    p.sentBy a = q.sentBy b ∧ p.now = q.now ∧ p.session? a = q.session? b ∧
      p.known? a = q.known? b := by
  have hlives := run.lives horder
  have hlives' := run'.lives horder'
  rw [hagenda, alone_start settings a b] at hlives
  rw [← moment_alone, ← moment_alone] at hmoment
  have hsame := hlives.unique hlives' hmoment
  have halone : p.alone a = q.alone b := congrArg Lone.scene hsame
  have hnow : (p.alone a).now = (q.alone b).now := by rw [halone]
  refine ⟨?_, hnow, ?_, ?_⟩
  · rw [← sentBy_alone, halone, sentBy_alone]
  · rw [← session?_alone, halone, session?_alone]
  · rw [← known?_alone, halone, known?_alone]

deriving instance DecidableEq for Script

deriving instance DecidableEq for Request

def solo : List Occurrence × Playback :=
  let launched := ask (.launch (.inline "duet" "/hello <wait.1>\n/bye <wait.1>") (.top none))
    ([], start { playback := { fastTick := 500 } })
  let hurried := ask (.setRate .fast) launched
  let early := follow (fun _ => 1000) 40 hurried.1 hurried.2
  let paused := ask (.pause ⟨1⟩) early
  let later := follow (fun _ => 1500) 20 paused.1 paused.2
  let resumed := ask (.resume ⟨1⟩) later
  follow (fun _ => 3000) 20 resumed.1 resumed.2

/-- The session of `solo` beside another one, which loops, takes a flag and is cancelled. -/
def duet : List Occurrence × Playback :=
  let other := ask (.launch (.inline "noise" "/autobusy\n/noise <wait.0.3>\n/loop") (.top none))
    ([], start { playback := { fastTick := 500 } })
  let begun := follow (fun _ => 0) 20 other.1 other.2
  let launched := ask (.launch (.inline "duet" "/hello <wait.1>\n/bye <wait.1>") (.top none)) begun
  let hurried := ask (.setRate .fast) launched
  let early := follow (fun _ => 1000) 40 hurried.1 hurried.2
  let armed := ask (.arm ⟨1⟩ .mare) early
  let paused := ask (.pause ⟨2⟩) armed
  let later := follow (fun _ => 1500) 40 paused.1 paused.2
  let cancelled := ask (.cancel ⟨1⟩) later
  let resumed := ask (.resume ⟨2⟩) cancelled
  follow (fun _ => 3000) 40 resumed.1 resumed.2

theorem orderly_solo (a : SessionId) : Orderly a { playback := { fastTick := 500 } } solo := by
  have hlaunch := (Orderly.start a { playback := { fastTick := 500 } }).ask
    (.launch (.inline "duet" "/hello <wait.1>\n/bye <wait.1>") (.top none))
  have hpause := ((hlaunch.ask (.setRate .fast)).follow (fun _ => 1000) 40).ask (.pause ⟨1⟩)
  have hresume := (hpause.follow (fun _ => 1500) 20).ask (.resume ⟨1⟩)
  exact hresume.follow (fun _ => 3000) 20

theorem orderly_duet (a : SessionId) : Orderly a { playback := { fastTick := 500 } } duet := by
  have hother := (Orderly.start a { playback := { fastTick := 500 } }).ask
    (.launch (.inline "noise" "/autobusy\n/noise <wait.0.3>\n/loop") (.top none))
  have hlaunch := (hother.follow (fun _ => 0) 20).ask
    (.launch (.inline "duet" "/hello <wait.1>\n/bye <wait.1>") (.top none))
  have harm := ((hlaunch.ask (.setRate .fast)).follow (fun _ => 1000) 40).ask (.arm ⟨1⟩ .mare)
  have hcancel := ((harm.ask (.pause ⟨2⟩)).follow (fun _ => 1500) 40).ask (.cancel ⟨1⟩)
  exact (hcancel.ask (.resume ⟨2⟩)).follow (fun _ => 3000) 40

theorem undisturbed_duet :
    agenda ⟨1⟩ solo.1 = agenda ⟨2⟩ duet.1 ∧
      solo.2.moment ⟨1⟩ (turnsOf ⟨1⟩ solo.1) = duet.2.moment ⟨2⟩ (turnsOf ⟨2⟩ duet.1) ∧
      duet.2.sentBy ⟨2⟩ = [(0, "/hello", .queue), (1000, "/bye", .queue)] ∧
      duet.2.session? ⟨2⟩ = solo.2.session? ⟨1⟩ := by
  have hagenda : agenda ⟨1⟩ solo.1 = agenda ⟨2⟩ duet.1 := by decide +kernel
  have hmoment : solo.2.moment ⟨1⟩ (turnsOf ⟨1⟩ solo.1) =
      duet.2.moment ⟨2⟩ (turnsOf ⟨2⟩ duet.1) := by decide +kernel
  have hsolo := orderly_solo ⟨1⟩
  have hduet := orderly_duet ⟨2⟩
  obtain ⟨hsent, -, hsession, -⟩ :=
    hsolo.run.undisturbed hduet.run hsolo.goesBy hduet.goesBy hagenda hmoment
  have hlines : solo.2.sentBy ⟨1⟩ = [(0, "/hello", .queue), (1000, "/bye", .queue)] := by
    decide +kernel
  exact ⟨hagenda, hmoment, hsent.symm.trans hlines, hsession.symm⟩

/-! ## What can be told apart -/

/-- What is asked of a session or of all, and in which millisecond, but for keeping an eye on it. -/
def asked (a : SessionId) (history : List Occurrence) : List (Nat × Request) :=
  (agenda a history).filterMap fun (moment, request) =>
    match request with
    | .hold _ | .releaseHold _ => none
    | request => some (moment.time, request)

/-- The same is asked in the same milliseconds of two runs, and yet not the same is sent. -/
structure Discord (a : SessionId) (first second : List Occurrence × Playback) : Prop where
  run : Run True {} first.1 first.2
  run' : Run True {} second.1 second.2
  asked : asked a first.1 = asked a second.1
  clock : first.2.clock = second.2.clock
  sentBy : first.2.sentBy a ≠ second.2.sentBy a

/-- Lets the second one of the tasks go on that may do so. -/
def overtake (played : List Occurrence × Playback) : List Occurrence × Playback :=
  match played.2.ready with
  | first :: task :: rest =>
    (⟨played.2, .run task, { played.2 with ready := first :: rest }.runTask task⟩ :: played.1,
      { played.2 with ready := first :: rest }.runTask task)
  | _ => played

theorem Run.overtake {punctual : Prop} {played : List Occurrence × Playback}
    (run : Run punctual settings played.1 played.2) :
    Run punctual settings (overtake played).1 (overtake played).2 := by
  unfold Playback.overtake
  split
  · next first task rest hready => exact run.step (@Step.run _ _ [first] rest task hready)
  · exact run

/-- A session whose playhead and whose padding have woken up in the same millisecond. -/
def awoken : List Occurrence × Playback :=
  let launched := ask (.launch (.inline "jump" "/pad 4 /jump\n/a <wait.0.01>\n/b") (.top none))
    ([], start {})
  wait 10 (follow (fun _ => 0) 20 launched.1 launched.2)

theorem run_awoken : Run True {} awoken.1 awoken.2 := by
  have hlaunch := Run.launched True {}
    (.inline "jump" "/pad 4 /jump\n/a <wait.0.01>\n/b") (.top none)
  exact (hlaunch.follow (fun _ => 0) 20).wait 10 fun _ => by decide +kernel

/-- With nobody else about, it tells whether the playhead or the padding went first, whether a pause came
before them or after them, and whether someone kept an eye on the session. -/
theorem discord_within_a_millisecond :
    Discord ⟨1⟩ (follow (fun _ => 10) 20 awoken.1 awoken.2)
        (follow (fun _ => 10) 20 (overtake awoken).1 (overtake awoken).2) ∧
      Discord ⟨1⟩ (ask (.pause ⟨1⟩) (follow (fun _ => 10) 20 awoken.1 awoken.2))
        (follow (fun _ => 10) 20 (ask (.pause ⟨1⟩) awoken).1 (ask (.pause ⟨1⟩) awoken).2) ∧
      Discord ⟨1⟩ (wait 60 (follow (fun _ => 60) 40 awoken.1 awoken.2))
        (wait 60 (follow (fun _ => 60) 40 (ask (.hold ⟨1⟩) awoken).1
          (ask (.hold ⟨1⟩) awoken).2)) := by
  have hfirst := run_awoken.follow (fun _ => 10) 20
  have hovertaken := run_awoken.overtake.follow (fun _ => 10) 20
  have hpaused := (run_awoken.ask (.pause ⟨1⟩)).follow (fun _ => 10) 20
  have hforgotten := (run_awoken.follow (fun _ => 60) 40).wait 60 fun _ => by decide +kernel
  have hheld := ((run_awoken.ask (.hold ⟨1⟩)).follow (fun _ => 60) 40).wait 60
    fun _ => by decide +kernel
  refine ⟨⟨hfirst, hovertaken, ?_, ?_, ?_⟩, ⟨hfirst.ask (.pause ⟨1⟩), hpaused, ?_, ?_, ?_⟩,
    ⟨hforgotten, hheld, ?_, ?_, ?_⟩⟩
  all_goals decide +kernel

end Choreo.Playback
