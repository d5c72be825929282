import Choreo.Proofs.Playback.Projection

/-!
# Cancellation is final

A session is cancelled by a request, or by its playhead when the host does not allow playback any
more. Its playhead, its paddings and its countdowns may still go on for a while, in any order and
among those of other sessions, but nothing is sent on its behalf from then on.
-/

namespace Choreo

/-- The session on whose behalf a task goes on. -/
def Task.session? : Task → Option SessionId
  | .play id _ | .pad id _ _ | .countdown id _ _ => some id
  | .release _ _ => none

/-! ## The status of a session -/

namespace Playhead

variable {h : Playhead} {v : Surroundings} {s t : Session}

/-- Whether a step of the playhead looks at what the host allows. -/
def Looks (h : Playhead) : Prop := h.stage = .turn ∨ h.stage = .wait ∨ h.stage = .waitRest

theorem finish_status (s : Session) :
    s.finish.status = .cancelled ↔ s.status = .cancelled := by
  unfold Session.finish
  by_cases hcancelled : s.status = .cancelled
  · simp [hcancelled]
  · simp [hcancelled]

theorem stopped?_status (hstop : s.stopped? v.allowed = some t) :
    (s.cancelled = true ∧ t = s) ∨ (v.allowed = false ∧ s.cancelled = false ∧
      t.status = .cancelled ∧ (s.status ≠ .cancelled → t.cancelled = true)) := by
  unfold Session.stopped? at hstop
  cases hflag : s.cancelled with
  | true =>
    rw [hflag, if_pos rfl] at hstop
    exact .inl ⟨rfl, (Option.some.inj hstop).symm⟩
  | false =>
    cases hallowed : v.allowed with
    | true => simp [hflag, hallowed] at hstop
    | false =>
      simp only [hflag, hallowed, Bool.false_eq_true, if_false, Option.some.injEq] at hstop
      obtain ⟨cancelled, hcancel, hset⟩ := s.cancel?_getD
      rw [hcancel] at hstop
      subst hstop
      exact .inr ⟨rfl, rfl, rfl, hset⟩

theorem stopped?_ne_none_of_forbidden (hforbidden : v.allowed = false) :
    s.stopped? v.allowed ≠ none := by
  unfold Session.stopped?
  rw [hforbidden]
  split
  · exact Option.some_ne_none _
  · exact Option.some_ne_none _

theorem live_of_stopped? (hflag : s.cancelled = true ↔ s.status = .cancelled)
    (hstop : s.stopped? v.allowed = none) : s.status ≠ .cancelled := by
  intro hcancelled
  rw [Session.stopped?, if_pos (hflag.2 hcancelled)] at hstop
  cases hstop

theorem cancelled_of_stopped? (hflag : s.cancelled = true ↔ s.status = .cancelled)
    (hstop : s.stopped? v.allowed = some t) : t.status = .cancelled := by
  rcases stopped?_status hstop with ⟨hset, rfl⟩ | ⟨-, -, hcancelled, -⟩
  · exact hflag.1 hset
  · exact hcancelled

theorem cancelled_of_refused (hflag : s.cancelled = true ↔ s.status = .cancelled)
    (hstatus : s.status = .stopped ∨ s.status = .cancelled) (hbegin : s.begin? v.now = none) :
    s.status = .cancelled := by
  rcases hstatus with hstopped | hcancelled
  · refine hflag.1 ?_
    simpa [Session.begin?, hstopped] using hbegin
  · exact hcancelled

/-- What a step of a playhead does to the status of its session. It cancels the session only if the
host forbids playback. -/
theorem step_status (h : Playhead) (v : Surroundings) (s : Session) :
    ((h.step v s).session.status = .cancelled ↔ s.status = .cancelled) ∧
        (h.step v s).session.cancelled = s.cancelled ∨
      h.Looks ∧ v.allowed = false ∧ s.cancelled = false ∧
        (h.step v s).session.status = .cancelled ∧
        (s.status ≠ .cancelled → (h.step v s).session.cancelled = true) := by
  have houtcome := h.step_outcome v s
  generalize h.step v s = move at houtcome
  cases houtcome with
  | refused hstage hbegin => exact .inl ⟨finish_status s, rfl⟩
  | began hstage hbegin =>
    obtain ⟨hstopped, -, rfl⟩ := Session.eq_of_begin? hbegin
    have hlive : s.status ≠ .cancelled := by
      rw [hstopped]
      decide
    exact .inl ⟨by simp [hlive], rfl⟩
  | stopped hstage hstop =>
    rcases stopped?_status hstop with ⟨-, rfl⟩ | ⟨hforbidden, hunset, hcancelled, hflag⟩
    · exact .inl ⟨finish_status _, rfl⟩
    · exact .inr ⟨hstage, hforbidden, hunset, (finish_status _).2 hcancelled, hflag⟩
  | ranOut hstage hstop hplaying hcommand =>
    refine .inl ⟨?_, ?_⟩
    · rw [finish_status, s.applySeek_eq]
    · show s.applySeek.cancelled = s.cancelled
      rw [s.applySeek_eq]
  | @wentBack c hstage hstop hplaying hcommand hback =>
    have hstatus := s.execute_restart_status v s.target c
    exact .inl ⟨by rw [hstatus], s.execute_cancelled v s.target c⟩
  | @wentOn c hstage hstop hplaying hcommand hback hskips =>
    have hstatus := s.execute_advance_status v s.target c
    exact .inl ⟨by rw [hstatus], s.execute_cancelled v s.target c⟩
  | @held c hstage hstop hplaying hcommand hskips =>
    have hstatus := s.execute_status v s.target c
    exact .inl ⟨by rw [← hstatus], s.execute_cancelled v s.target c⟩
  | _ => exact .inl ⟨.rfl, rfl⟩

theorem step_status_of_cancelled (hcancelled : s.status = .cancelled) :
    (h.step v s).session.status = .cancelled := by
  rcases h.step_status v s with ⟨hstatus, -⟩ | ⟨-, -, -, hstatus, -⟩
  · exact hstatus.2 hcancelled
  · exact hstatus

theorem step_status_of_forbidden (hlooks : h.Looks) (hforbidden : v.allowed = false)
    (hflag : s.cancelled = true ↔ s.status = .cancelled) :
    (h.step v s).session.status = .cancelled := by
  have hnot := stopped?_ne_none_of_forbidden (s := s) hforbidden
  have houtcome := h.step_outcome v s
  generalize h.step v s = move at houtcome
  cases houtcome with
  | stopped _ hstop => exact (finish_status _).2 (cancelled_of_stopped? hflag hstop)
  | refused hstage | began hstage | rested hstage | passed hstage =>
    simp [Looks, hstage] at hlooks
  | resting _ hstop | ranOut _ hstop | wentBack _ hstop | wentOn _ hstop | held _ hstop
  | cut _ hstop | suspended _ hstop | waited _ hstop | done _ hstop => exact absurd hstop hnot

end Playhead

theorem Start.prepare_eq (start : Start) (script : ScriptId) (lines : List String) :
    ∃ pendingSeek epoch, start.prepare script lines =
      { Session.create script start.filter? (.compile lines start.filter?) with
        pendingSeek, epoch } := by
  cases start with
  | top filter => exact ⟨none, 0, rfl⟩
  | line number =>
    simp only [Start.prepare, Session.seek?]
    split
    · exact ⟨none, 0, rfl⟩
    · next target _ => exact ⟨some target, 1, rfl⟩

namespace Solo

variable {punctual : Prop} {settings : Settings} {id : SessionId} {story beats : List Beat}
variable {solo solo' : Solo}

theorem Step.cancelled_stays (hstep : Step punctual settings id solo beats solo')
    (hcancelled : solo.session.status = .cancelled) : solo'.session.status = .cancelled := by
  cases hstep with
  | idle => exact hcancelled
  | paused _ hpause =>
    have hplaying := (Session.eq_of_pause? hpause).1
    rw [hcancelled] at hplaying
    cases hplaying
  | resumed _ hresume =>
    have hpaused := (Session.eq_of_resume? hresume).1
    rw [hcancelled] at hpaused
    cases hpaused
  | sought _ hseek =>
    obtain ⟨_, -, hlive, -⟩ := Session.eq_of_seek? hseek
    exact absurd hcancelled hlive
  | cancelled _ =>
    obtain ⟨cancelled, hcancel, -⟩ := solo.session.cancel?_getD
    rw [hcancel]
  | played => exact Playhead.step_status_of_cancelled hcancelled
  | passed _ => exact hcancelled

/-- The flag that a session has to stop goes with its status. -/
theorem Step.cancelled_iff (hstep : Step punctual settings id solo beats solo')
    (hflag : solo.session.cancelled = true ↔ solo.session.status = .cancelled) :
    solo'.session.cancelled = true ↔ solo'.session.status = .cancelled := by
  cases hstep with
  | idle => exact hflag
  | paused _ hpause =>
    obtain ⟨hplaying, rfl⟩ := Session.eq_of_pause? hpause
    rw [hplaying] at hflag
    simpa using hflag
  | resumed _ hresume =>
    obtain ⟨hpaused, rfl⟩ := Session.eq_of_resume? hresume
    rw [hpaused] at hflag
    simpa using hflag
  | sought _ hseek =>
    obtain ⟨_, -, -, rfl⟩ := Session.eq_of_seek? hseek
    exact hflag
  | cancelled _ =>
    unfold Session.cancel?
    split
    · exact hflag
    · simp
  | @played head v _ _ _ =>
    show (head.step v solo.session).session.cancelled = true ↔
      (head.step v solo.session).session.status = .cancelled
    rcases head.step_status v solo.session with
      ⟨hstatus, hsame⟩ | ⟨-, -, hunset, hstatus, hset⟩
    · rw [hstatus, hsame]
      exact hflag
    · have hlive : ¬solo.session.status = .cancelled := by
        rw [← hflag, hunset]
        decide
      simp [hstatus, hset hlive]
  | passed _ => exact hflag

theorem Run.cancelled_iff (run : Run punctual settings id story solo) :
    solo.session.cancelled = true ↔ solo.session.status = .cancelled := by
  induction run with
  | launched clock ignoreLooping start script lines =>
    obtain ⟨_, _, hprepare⟩ := start.prepare_eq script lines
    rw [hprepare]
    simp [Session.create]
  | step run hstep ih => exact hstep.cancelled_iff ih

end Solo

/-! ## How a session comes to be cancelled -/

namespace Playback

variable {punctual : Prop} {settings : Settings} {history later earlier : List Occurrence}
variable {p q : Playback} {id : SessionId} {s t : Session} {solo : Solo} {act : Act}
variable {o : Occurrence} {task : Task}

def IsCancelled (p : Playback) (id : SessionId) : Prop :=
  ∃ s, p.session? id = some s ∧ s.status = .cancelled

/-- A request to cancel the session was granted, or its playhead saw that the host does not allow
playback any more. -/
def Occurrence.Cancels (id : SessionId) (o : Occurrence) : Prop :=
  match o.act with
  | .serve (.cancel i) true => i = id
  | .run (.play i head) => i = id ∧ head.Looks ∧ o.before.allowed = false
  | _ => False

theorem Shows.isCancelled_iff (h : p.Shows id solo) :
    p.IsCancelled id ↔ solo.session.status = .cancelled := by
  unfold IsCancelled
  rw [h.session]
  simp

theorem Lacks.not_isCancelled (h : p.Lacks id) : ¬p.IsCancelled id := by
  rintro ⟨s, hs, -⟩
  rw [h.session] at hs
  cases hs

theorem Alike.isCancelled_iff (h : Alike id p q) : q.IsCancelled id ↔ p.IsCancelled id := by
  unfold IsCancelled
  rw [h.session]

theorem Shows.not_isCancelled_change (h : p.Shows id solo)
    (hlive : solo.session.status ≠ .cancelled) {change : Session → Option Session}
    (hchange : ∀ t, change solo.session = some t → t.status ≠ .cancelled) :
    ¬(p.change id change).1.IsCancelled id := by
  have hp : ¬p.IsCancelled id := by
    rw [h.isCancelled_iff]
    exact hlive
  unfold Playback.change changeFound
  rw [h.session, Option.bind_some]
  split
  · cases ht : change solo.session with
    | none => exact hp
    | some t =>
      simp only
      rw [(h.setSession t).isCancelled_iff]
      exact hchange t ht
  · exact hp

theorem Shows.cancels_of_serve (h : p.Shows id solo) (hlive : solo.session.status ≠ .cancelled)
    {request : Request} (hq : (p.serve request).1.IsCancelled id) :
    Occurrence.Cancels id ⟨p, .serve request (p.serve request).2, (p.serve request).1⟩ := by
  have hp : ¬p.IsCancelled id := by
    rw [h.isCancelled_iff]
    exact hlive
  by_cases htarget : request.target? p = some id
  · cases request with
    | launch script start => exact absurd (Option.some.inj htarget).symm h.ne_nextId
    | pause i =>
      cases htarget
      refine absurd hq (h.not_isCancelled_change hlive fun t hpause => ?_)
      obtain ⟨-, rfl⟩ := Session.eq_of_pause? hpause
      simp
    | resume i =>
      cases htarget
      refine absurd hq (h.not_isCancelled_change hlive fun t hresume => ?_)
      obtain ⟨-, rfl⟩ := Session.eq_of_resume? hresume
      simp
    | seek i line =>
      cases htarget
      refine absurd hq (h.not_isCancelled_change hlive fun t hseek => ?_)
      obtain ⟨_, -, -, rfl⟩ := Session.eq_of_seek? hseek
      exact hlive
    | cancel i =>
      cases htarget
      simp only [serve] at hq ⊢
      rw [cancel_eq] at hq ⊢
      cases hactive : p.isActive id with
      | false =>
        rw [hactive] at hq
        exact absurd hq hp
      | true =>
        simp only [if_true]
        split <;> exact rfl
    | _ => cases htarget
  · exact absurd ((alike_serve htarget).isCancelled_iff.1 hq) hp

theorem Shows.cancels_of_run (h : p.Shows id solo) (hlive : solo.session.status ≠ .cancelled)
    {before after : List Task} (hready : p.ready = before ++ task :: after)
    (hq : ({ p with ready := before ++ after }.runTask task).IsCancelled id) :
    Occurrence.Cancels id ⟨p, .run task, { p with ready := before ++ after }.runTask task⟩ := by
  cases htask : task.head? id with
  | none =>
    have halike := (alike_take hready htask).trans (alike_runTask _ htask)
    rw [halike.isCancelled_iff, h.isCancelled_iff] at hq
    exact absurd hq hlive
  | some head =>
    have hplay := Task.eq_play_of_head?_eq_some htask
    subst hplay
    rw [(h.run_play hready).isCancelled_iff] at hq
    rcases head.step_status p.surroundings solo.session with
      ⟨hstatus, -⟩ | ⟨hlooks, hforbidden, -⟩
    · exact absurd (hstatus.1 hq) hlive
    · exact ⟨rfl, hlooks, hforbidden⟩

theorem Run.cancels (run : Run punctual settings history p) (hstep : Step punctual p act q)
    (hp : ¬p.IsCancelled id) (hq : q.IsCancelled id) : Occurrence.Cancels id ⟨p, act, q⟩ := by
  rcases run.apart id with ⟨hlacks, -⟩ | ⟨solo, hshows, -⟩
  · refine absurd hq ?_
    rcases hlacks.steps hstep with ⟨-, hlacks'⟩ | ⟨start, script, lines, -, hshows⟩
    · exact hlacks'.not_isCancelled
    · rw [hshows.isCancelled_iff]
      obtain ⟨_, _, hprepare⟩ := start.prepare_eq script lines
      rw [hprepare]
      simp [Session.create]
  · have hlive : solo.session.status ≠ .cancelled := by
      rw [hshows.isCancelled_iff] at hp
      exact hp
    cases hstep with
    | serve request => exact hshows.cancels_of_serve hlive hq
    | run hready => exact hshows.cancels_of_run hlive hready hq
    | @pass time =>
      rw [(hshows.wakeAt time).isCancelled_iff] at hq
      exact absurd hq hlive

theorem Run.exists_cancels (run : Run punctual settings history p) (hp : p.IsCancelled id) :
    ∃ o ∈ history, o.Cancels id := by
  induction run with
  | start => exact absurd hp (lacks_start settings id).not_isCancelled
  | @step history p q act run hstep ih =>
    by_cases hbefore : p.IsCancelled id
    · obtain ⟨o, ho, hcancels⟩ := ih hbefore
      exact ⟨o, List.mem_cons_of_mem _ ho, hcancels⟩
    · exact ⟨_, List.mem_cons_self, run.cancels hstep hbefore hp⟩

theorem cancel_snd (p : Playback) (id : SessionId) : (p.cancel id).2 = p.isActive id := by
  rw [cancel_eq]
  cases p.isActive id with
  | false => rfl
  | true =>
    simp only [if_true]
    split <;> rfl

theorem cancels_cancel_iff {i : SessionId} {granted : Bool} :
    Occurrence.Cancels id ⟨p, .serve (.cancel i) granted, q⟩ ↔ granted = true ∧ i = id := by
  cases granted <;> simp [Occurrence.Cancels]

theorem Shows.isCancelled_cancel (h : p.Shows id solo) (hactive : p.isActive id = true) :
    (p.cancel id).1.IsCancelled id := by
  rw [cancel_eq, if_pos hactive, h.session, Option.bind_some]
  unfold Session.cancel?
  by_cases hcancelled : solo.session.status = .cancelled
  · rw [if_pos hcancelled]
    exact h.deactivate.isCancelled_iff.2 hcancelled
  · rw [if_neg hcancelled]
    exact (h.deactivate.setSession _).isCancelled_iff.2 rfl

theorem Run.isCancelled_of_cancels (run : Run punctual settings history p)
    (hstep : Step punctual p act q) (hcancels : Occurrence.Cancels id ⟨p, act, q⟩) :
    q.IsCancelled id := by
  cases hstep with
  | serve request =>
    cases request with
    | cancel i =>
      obtain ⟨hgranted, rfl⟩ := cancels_cancel_iff.1 hcancels
      simp only [serve, cancel_snd] at hgranted
      rcases run.apart i with ⟨hlacks, -⟩ | ⟨solo, hshows, -⟩
      · rw [hlacks.active] at hgranted
        cases hgranted
      · exact hshows.isCancelled_cancel hgranted
    | _ => cases hcancels
  | @run before after task hready =>
    cases task with
    | play i head =>
      obtain ⟨rfl, hlooks, hforbidden⟩ := hcancels
      rcases run.apart i with ⟨hlacks, -⟩ | ⟨solo, hshows, hrun⟩
      · have hnone := hlacks.head?_eq_none hready
        rw [Task.head?_play_self] at hnone
        cases hnone
      · rw [(hshows.run_play hready).isCancelled_iff]
        exact Playhead.step_status_of_forbidden hlooks hforbidden hrun.cancelled_iff
    | _ => cases hcancels
  | pass => cases hcancels

theorem Run.isCancelled_of_step (run : Run punctual settings history p)
    (hstep : Step punctual p act q) (hp : p.IsCancelled id) : q.IsCancelled id := by
  rcases run.apart id with ⟨hlacks, -⟩ | ⟨solo, hshows, -⟩
  · exact absurd hp hlacks.not_isCancelled
  · obtain ⟨solo', hstep', hshows'⟩ := hshows.follows run.settings_eq hstep
    rw [hshows.isCancelled_iff] at hp
    rw [hshows'.isCancelled_iff]
    exact hstep'.cancelled_stays hp

/-- From a step that leaves a session cancelled on, it is cancelled before and after every step. -/
theorem Run.isCancelled_of_later (run : Run punctual settings (later ++ o :: earlier) p)
    (ho : o.after.IsCancelled id) :
    p.IsCancelled id ∧ ∀ o' ∈ later, o'.before.IsCancelled id ∧ o'.after.IsCancelled id := by
  induction later generalizing p with
  | nil =>
    cases run with
    | step run hstep =>
      refine ⟨ho, ?_⟩
      intro o' ho'
      cases ho'
  | cons o' later ih =>
    cases run with
    | step run hstep =>
      obtain ⟨hbefore, hlater⟩ := ih run
      have hafter := run.isCancelled_of_step hstep hbefore
      refine ⟨hafter, ?_⟩
      intro o'' ho''
      rcases List.mem_cons.1 ho'' with rfl | hmem
      · exact ⟨hbefore, hafter⟩
      · exact hlater o'' hmem

/-! ## What is sent -/

variable {envelope : Envelope}

theorem origin_of_mem_taskEvents (hsent : .sent envelope ∈ p.taskEvents task) :
    envelope.origin = task.session? := by
  cases task with
  | play i head =>
    simp only [taskEvents] at hsent
    split at hsent
    · cases hsent
    · obtain ⟨effect, -, heffect⟩ := List.mem_filterMap.1 hsent
      cases effect with
      | send command mode =>
        simp only [Effect.event?] at heffect
        split at heffect
        · cases heffect
        · cases heffect
          rfl
      | _ => cases heffect
  | pad i payload left =>
    simp only [taskEvents] at hsent
    split at hsent
    · split at hsent
      · cases hsent
      · cases List.mem_singleton.1 hsent
        rfl
    · cases hsent
  | countdown i epoch command =>
    simp only [taskEvents] at hsent
    split at hsent
    · split at hsent
      · cases List.mem_singleton.1 hsent
        rfl
      · cases hsent
    · cases hsent
  | release ticket command =>
    simp only [taskEvents] at hsent
    split at hsent
    · cases List.mem_singleton.1 hsent
      rfl
    · cases hsent

theorem IsCancelled.not_mem_taskEvents (hp : p.IsCancelled id) (htask : task.session? = some id) :
    .sent envelope ∉ p.taskEvents task := by
  obtain ⟨s, hs, hcancelled⟩ := hp
  intro hsent
  cases task with
  | play i head =>
    -- Whatever the step does, it leaves the session cancelled, and this is looked at in sending.
    cases htask
    have hafter : (head.step p.surroundings s).session.status = .cancelled :=
      Playhead.step_status_of_cancelled hcancelled
    simp only [taskEvents, hs] at hsent
    obtain ⟨effect, -, heffect⟩ := List.mem_filterMap.1 hsent
    cases effect with
    | send command mode => simp [Effect.event?, hafter] at heffect
    | _ => cases heffect
  | pad i payload left =>
    -- A padding looks for its session itself, which everyone may have forgotten by now.
    cases htask
    simp only [taskEvents] at hsent
    split at hsent
    · next t hknown =>
      have ht := session?_of_known? hknown
      rw [hs] at ht
      cases ht
      rw [if_pos hcancelled] at hsent
      cases hsent
    · cases hsent
  | countdown i epoch command =>
    cases htask
    simp only [taskEvents, hs] at hsent
    split at hsent
    · next t _ ht =>
      cases ht
      simp [hcancelled] at hsent
    · cases hsent
  | release ticket command => cases htask

/-- Cancelling a session by request works, and so does forbidding playback once its playhead looks.
There is no other way for it to be cancelled, and it stays so. All that is sent afterwards comes from
tasks of other sessions, or of none. -/
theorem Run.cancellation_is_final (run : Run punctual settings (later ++ o :: earlier) p)
    (id : SessionId) :
    (o.Cancels id → o.after.IsCancelled id) ∧
      (o.after.IsCancelled id →
        (∃ o' ∈ o :: earlier, o'.Cancels id) ∧ p.IsCancelled id ∧
          ∀ o' ∈ later, o'.after.IsCancelled id ∧ ∀ envelope, .sent envelope ∈ o'.events →
            envelope.origin ≠ some id ∧
              ∃ task, o'.act = .run task ∧ task.session? = envelope.origin) := by
  obtain ⟨hrun, hstep⟩ := run.cut
  refine ⟨hrun.isCancelled_of_cancels hstep, fun ho => ?_⟩
  obtain ⟨hp, hlater⟩ := run.isCancelled_of_later ho
  refine ⟨(hrun.step hstep).exists_cancels ho, hp, fun o' ho' => ⟨(hlater o' ho').2, ?_⟩⟩
  intro envelope hsent
  obtain ⟨first, rest, hsplit⟩ := List.append_of_mem ho'
  have hstep' : Step punctual o'.before o'.act o'.after := by
    rw [hsplit, List.append_assoc] at run
    exact run.cut.2
  rw [hstep'.events] at hsent
  cases hact : o'.act with
  | run task =>
    rw [hact, actEvents] at hsent
    have horigin := origin_of_mem_taskEvents hsent
    refine ⟨?_, task, rfl, horigin.symm⟩
    intro hid
    rw [horigin] at hid
    exact (hlater o' ho').1.not_mem_taskEvents hid hsent
  | serve request granted =>
    rw [hact] at hsent
    cases hsent
  | pass time =>
    rw [hact] at hsent
    cases hsent

theorem cancellation_before_beginning :
    let p := ((start {}).serve (.launch (.inline "hello" "Hello") (.top none))).1
    let q := (p.serve (.cancel ⟨1⟩)).1
    let r := { q with ready := [] }.runTask (.play ⟨1⟩ { lastCheck := 0 })
    q.IsCancelled ⟨1⟩ ∧ r.IsCancelled ⟨1⟩ ∧
      ∀ envelope, .sent envelope ∈ (Occurrence.mk q (.run (.play ⟨1⟩ { lastCheck := 0 })) r).events →
        envelope.origin ≠ some ⟨1⟩ := by
  intro p q r
  have hlaunch : Run True {} _ p :=
    Run.start.step (.serve (.launch (.inline "hello" "Hello") (.top none)))
  have hcancel : Run True {} _ q := hlaunch.step (.serve (.cancel ⟨1⟩))
  have hplay : Run True {} _ r := hcancel.step (@Step.run True q [] [] _ rfl)
  have hfinal := @Run.cancellation_is_final True {} [_] _ _ _ hplay ⟨1⟩
  have hcancelled : q.IsCancelled ⟨1⟩ := hfinal.1 (cancels_cancel_iff.2 ⟨rfl, rfl⟩)
  obtain ⟨-, hr, hlater⟩ := hfinal.2 hcancelled
  exact ⟨hcancelled, hr, fun envelope hsent => ((hlater _ List.mem_cons_self).2 envelope hsent).1⟩

end Playback

end Choreo
