import Choreo.Proofs.Playback.Coherence
import Choreo.Proofs.Playback.Shared

/-!
# The life of a session

The status of a session, whether it was cancelled and whether it is active are kept in three places,
and requests and playheads change them in different orders. `Run.follows_diagram` says that they agree
whenever all tasks wait, and that the status of every session follows the diagram

    stopped --> playing <--> paused,   playing | paused --> cancelled,   playing --> stopped

where nothing comes after the end. Only a session that is cancelled between its launch and the first
step of its playhead ends without having begun.
-/

namespace Choreo

/-! ## The diagram -/

/-- Adds a status to those that a session had, the latest first, if it is another one. -/
def Status.push (status : Status) : List Status → List Status
  | [] => [status]
  | last :: earlier => if last = status then last :: earlier else status :: last :: earlier

theorem Status.push_self (status : Status) (earlier : List Status) :
    status.push (status :: earlier) = status :: earlier := if_pos rfl

theorem Status.push_of_ne {status last : Status} (h : last ≠ status) (earlier : List Status) :
    status.push (last :: earlier) = status :: last :: earlier := if_neg h

/-- What the status of a session was up to now, the latest first, if it has not ended. -/
inductive Lively : List Status → Prop where
  | launched : Lively [.stopped]
  | begun : Lively [.playing, .stopped]
  | paused {earlier : List Status} (h : Lively (.playing :: earlier)) :
      Lively (.paused :: .playing :: earlier)
  | resumed {earlier : List Status} (h : Lively (.paused :: earlier)) :
      Lively (.playing :: .paused :: earlier)

/-- What the status of a session was up to now, the latest first. It may be cancelled before it has
begun if it was forestalled, and it stops only if it has run out of commands. -/
inductive Diagram (forestalled ranOut : Prop) : List Status → Prop where
  | lively {statuses : List Status} (h : Lively statuses) : Diagram forestalled ranOut statuses
  | cancelled {last : Status} {earlier : List Status} (h : Lively (last :: earlier))
      (hbegun : last = .stopped → forestalled) :
      Diagram forestalled ranOut (.cancelled :: last :: earlier)
  | stopped {earlier : List Status} (h : Lively (.playing :: earlier)) (hout : ranOut) :
      Diagram forestalled ranOut (.stopped :: .playing :: earlier)

/-! ## The steps of a playhead -/

namespace Playhead

variable {h head : Playhead} {v : Surroundings} {s : Session}

theorem step_of_opening (hstage : h.stage = .opening) (hstopped : s.status = .stopped)
    (hflag : s.cancelled = true ↔ s.status = .cancelled) :
    (h.step v s).session.status = .playing ∧
      ∃ head, (h.step v s).next.head? = some head ∧ head.stage ≠ .opening := by
  have houtcome := h.step_outcome v s
  generalize h.step v s = move at houtcome
  cases houtcome with
  | refused _ hbegin =>
    have hcancelled := cancelled_of_refused hflag (.inl hstopped) hbegin
    rw [hstopped] at hcancelled
    cases hcancelled
  | began _ hbegin =>
    obtain ⟨-, -, rfl⟩ := Session.eq_of_begin? hbegin
    exact ⟨rfl, _, rfl, by simp⟩
  | stopped hstage' | cut hstage' | suspended hstage' | waited hstage' | done hstage' =>
    simp [hstage] at hstage'
  | resting hstage' | ranOut hstage' | wentBack hstage' | wentOn hstage' | held hstage'
  | rested hstage' | passed hstage' =>
    rw [hstage] at hstage'
    cases hstage'

/-- A playhead that has begun leaves the status as it is, or ends playing. It stops a session that
plays, and any other it leaves cancelled. -/
theorem step_of_begun (hstage : h.stage ≠ .opening)
    (hflag : s.cancelled = true ↔ s.status = .cancelled) :
    ((h.step v s).session.status = s.status ∧
        ∃ head, (h.step v s).next.head? = some head ∧ head.stage ≠ .opening) ∨
      (h.step v s).next = .ended ∧ ((h.step v s).session.status = .cancelled ∨
        (h.step v s).session.status = .stopped ∧ s.status ≠ .paused) := by
  have houtcome := h.step_outcome v s
  generalize h.step v s = move at houtcome
  cases houtcome with
  | refused hopening | began hopening => exact absurd hopening hstage
  | stopped _ hstop =>
    exact .inr ⟨rfl, .inl ((finish_status _).2 (cancelled_of_stopped? hflag hstop))⟩
  | ranOut _ hstop hplaying =>
    have hlive := live_of_stopped? hflag hstop
    have hsame : s.applySeek.status = s.status := by rw [s.applySeek_eq]
    rw [← hsame] at hlive
    exact .inr ⟨rfl, .inr ⟨if_neg hlive, hplaying⟩⟩
  | wentBack => exact .inl ⟨s.execute_restart_status v _ _, _, rfl, by simp⟩
  | wentOn => exact .inl ⟨s.execute_advance_status v _ _, _, rfl, by simp⟩
  | @held c =>
    obtain ⟨head, hhead, -, hopening⟩ :=
      head?_waiting ((h.land v.now s).charge (c.wait - s.pingOffset)) v
    exact .inl ⟨s.execute_status v _ _, head, hhead, hopening⟩
  | _ => exact .inl ⟨rfl, _, rfl, by simp⟩

end Playhead

/-! ## The run of a session -/

namespace Solo

variable {punctual : Prop} {settings : Settings} {id : SessionId} {story beats : List Beat}
variable {solo solo' : Solo} {forestalled : Prop} {statuses : List Status}

inductive Phase (forestalled : Prop) (solo : Solo) : List Status → Prop where
  | launched {head : Playhead} (hhead : solo.place.head? = some head)
      (hstage : head.stage = .opening) (hactive : solo.active = true)
      (hstatus : solo.session.status = .stopped) : Phase forestalled solo [.stopped]
  | begun {head : Playhead} {status : Status} {earlier : List Status}
      (hhead : solo.place.head? = some head) (hstage : head.stage ≠ .opening)
      (hactive : solo.active = true) (hstatus : solo.session.status = status)
      (hplaying : status = .playing ∨ status = .paused) (hlively : Lively (status :: earlier)) :
      Phase forestalled solo (status :: earlier)
  | cancelled {last : Status} {earlier : List Status} (hactive : solo.active = false)
      (hstatus : solo.session.status = .cancelled) (hlively : Lively (last :: earlier))
      (hbegun : last = .stopped → forestalled) :
      Phase forestalled solo (.cancelled :: last :: earlier)
  | stopped {earlier : List Status} (hgone : solo.place.head? = none)
      (hactive : solo.active = false) (hstatus : solo.session.status = .stopped)
      (hlively : Lively (.playing :: earlier)) : Phase forestalled solo (.stopped :: .playing :: earlier)

namespace Phase

theorem mono {forestalled' : Prop} (h : Phase forestalled solo statuses)
    (hmono : forestalled → forestalled') : Phase forestalled' solo statuses := by
  cases h with
  | launched hhead hstage hactive hstatus => exact .launched hhead hstage hactive hstatus
  | begun hhead hstage hactive hstatus hplaying hlively =>
    exact .begun hhead hstage hactive hstatus hplaying hlively
  | cancelled hactive hstatus hlively hbegun =>
    exact .cancelled hactive hstatus hlively fun hstopped => hmono (hbegun hstopped)
  | stopped hgone hactive hstatus hlively => exact .stopped hgone hactive hstatus hlively

theorem head?_eq (h : Phase forestalled solo statuses) :
    statuses.head? = some solo.session.status := by
  cases h with
  | launched _ _ _ hstatus | begun _ _ _ hstatus | cancelled _ hstatus | stopped _ _ hstatus =>
    rw [hstatus]
    rfl

theorem active_iff (h : Phase forestalled solo statuses)
    (hbegun : ∀ head, solo.place.head? = some head → head.stage ≠ .opening) :
    solo.active = true ↔ solo.session.status = .playing ∨ solo.session.status = .paused := by
  cases h with
  | launched hhead hstage => exact absurd hstage (hbegun _ hhead)
  | begun _ _ hactive hstatus hplaying =>
    rw [hstatus]
    exact iff_of_true hactive hplaying
  | cancelled hactive hstatus => simp [hactive, hstatus]
  | stopped _ hactive hstatus => simp [hactive, hstatus]

theorem diagram (h : Phase forestalled solo statuses) {ranOut : Prop}
    (hout : solo.place.head? = none → solo.session.status = .stopped → ranOut) :
    Diagram forestalled ranOut statuses := by
  cases h with
  | launched => exact .lively .launched
  | begun _ _ _ _ _ hlively => exact .lively hlively
  | cancelled _ _ hlively hbegun => exact .cancelled hlively hbegun
  | stopped hgone _ hstatus hlively => exact .stopped hlively (hout hgone hstatus)

theorem congr (h : Phase forestalled solo statuses)
    (hplace : solo'.place.head? = solo.place.head?) (hactive : solo'.active = solo.active)
    (hstatus : solo'.session.status = solo.session.status) :
    Phase forestalled solo' (solo'.session.status.push statuses) := by
  cases h with
  | launched hhead hstage hactive' hstatus' =>
    rw [hstatus, hstatus']
    exact .launched (hplace.trans hhead) hstage (hactive.trans hactive') (hstatus.trans hstatus')
  | begun hhead hstage hactive' hstatus' hplaying hlively =>
    rw [hstatus, hstatus', Status.push_self]
    exact .begun (hplace.trans hhead) hstage (hactive.trans hactive') (hstatus.trans hstatus')
      hplaying hlively
  | cancelled hactive' hstatus' hlively hbegun =>
    rw [hstatus, hstatus', Status.push_self]
    exact .cancelled (hactive.trans hactive') (hstatus.trans hstatus') hlively hbegun
  | stopped hgone hactive' hstatus' hlively =>
    rw [hstatus, hstatus', Status.push_self]
    exact .stopped (hplace.trans hgone) (hactive.trans hactive') (hstatus.trans hstatus') hlively

theorem asked (h : Phase forestalled solo statuses) {happening : Happening}
    (hasked : solo.Asked happening solo')
    (hforestalled : happening = .cancelled →
      ∀ head, solo.place.head? = some head → head.stage = .opening → forestalled) :
    Phase forestalled solo' (solo'.session.status.push statuses) := by
  cases hasked with
  | paused hactive hpause =>
    obtain ⟨hplaying, rfl⟩ := Session.eq_of_pause? hpause
    cases h with
    | launched _ _ _ hstatus | cancelled _ hstatus | stopped _ _ hstatus =>
      rw [hplaying] at hstatus
      cases hstatus
    | begun hhead hstage _ hstatus _ hlively =>
      rw [hplaying] at hstatus
      subst hstatus
      exact .begun hhead hstage hactive rfl (.inr rfl) hlively.paused
  | resumed hactive hresume =>
    obtain ⟨hpaused, rfl⟩ := Session.eq_of_resume? hresume
    cases h with
    | launched _ _ _ hstatus | cancelled _ hstatus | stopped _ _ hstatus =>
      rw [hpaused] at hstatus
      cases hstatus
    | begun hhead hstage _ hstatus _ hlively =>
      rw [hpaused] at hstatus
      subst hstatus
      exact .begun hhead hstage hactive rfl (.inl rfl) hlively.resumed
  | sought hactive hseek =>
    obtain ⟨_, -, -, rfl⟩ := Session.eq_of_seek? hseek
    exact h.congr rfl rfl rfl
  | cancelled hactive =>
    obtain ⟨cancelled, hcancel, -⟩ := solo.session.cancel?_getD
    rw [hcancel]
    cases h with
    | launched hhead hstage =>
      exact .cancelled rfl rfl .launched fun _ => hforestalled rfl _ hhead hstage
    | @begun _ status earlier _ _ _ hstatus hplaying hlively =>
      have hlive : status ≠ .cancelled := by rcases hplaying with rfl | rfl <;> decide
      show Phase forestalled _ (Status.cancelled.push (status :: earlier))
      rw [Status.push_of_ne hlive]
      refine .cancelled rfl rfl hlively fun hstopped => ?_
      rw [hstopped] at hplaying
      simp at hplaying
    | cancelled hinactive | stopped _ hinactive =>
      rw [hinactive] at hactive
      cases hactive

theorem played (h : Phase forestalled solo statuses)
    (hflag : solo.session.cancelled = true ↔ solo.session.status = .cancelled) {head : Playhead}
    (hplace : solo.place = .ready head) (v : Surroundings) :
    Phase forestalled (solo.after (head.step v solo.session))
      ((head.step v solo.session).session.status.push statuses) := by
  have hhead := Place.head?_ready hplace
  have hafter (head' : Playhead) (hnext : (head.step v solo.session).next.head? = some head') :
      (solo.after (head.step v solo.session)).place.head? = some head' ∧
        (solo.after (head.step v solo.session)).active = solo.active := by
    refine ⟨((head.step v solo.session).next.head?_place solo.clock).trans hnext, ?_⟩
    have hgoes : (head.step v solo.session).next ≠ .ended := by
      intro hended
      rw [hended] at hnext
      cases hnext
    simp [Solo.after, hgoes]
  have hends (hended : (head.step v solo.session).next = .ended) :
      (solo.after (head.step v solo.session)).place.head? = none ∧
        (solo.after (head.step v solo.session)).active = false := by
    refine ⟨((head.step v solo.session).next.head?_place solo.clock).trans ?_, ?_⟩
    · rw [hended]
      rfl
    · simp [Solo.after, hended]
  cases h with
  | launched hhead' hstage hactive hstatus =>
    rw [hhead] at hhead'
    cases hhead'
    obtain ⟨hplaying, head', hnext, hbegun⟩ := Playhead.step_of_opening hstage hstatus hflag
    rw [hplaying]
    exact .begun (hafter head' hnext).1 hbegun ((hafter head' hnext).2.trans hactive) hplaying
      (.inl rfl) .begun
  | @begun _ status earlier hhead' hstage hactive hstatus hplaying hlively =>
    rw [hhead] at hhead'
    cases hhead'
    have hlive : status ≠ .cancelled ∧ status ≠ .stopped := by
      rcases hplaying with rfl | rfl <;> decide
    rcases Playhead.step_of_begun (v := v) hstage hflag with
      ⟨hsame, head', hnext, hbegun⟩ | ⟨hended, hcancelled | ⟨hstopped, hrunning⟩⟩
    · rw [hsame, hstatus, Status.push_self]
      exact .begun (hafter head' hnext).1 hbegun ((hafter head' hnext).2.trans hactive)
        (hsame.trans hstatus) hplaying hlively
    · rw [hcancelled, Status.push_of_ne hlive.1]
      exact .cancelled (hends hended).2 hcancelled hlively fun hstopped => absurd hstopped hlive.2
    · rw [hstatus] at hrunning
      obtain rfl := hplaying.resolve_right hrunning
      rw [hstopped, Status.push_of_ne (by decide)]
      exact .stopped (hends hended).1 (hends hended).2 hstopped hlively
  | cancelled hactive hstatus hlively hbegun =>
    have hstays : (head.step v solo.session).session.status = .cancelled :=
      Playhead.step_status_of_cancelled hstatus
    rw [hstays, Status.push_self]
    refine .cancelled ?_ hstays hlively hbegun
    simp [Solo.after, hactive]
  | stopped hgone =>
    rw [hhead] at hgone
    cases hgone

theorem status_of_inactive (h : Phase forestalled solo statuses) (hinactive : solo.active = false)
    {head : Playhead} (hplace : solo.place = .ready head) (v : Surroundings) :
    (head.step v solo.session).session.status = solo.session.status := by
  cases h with
  | launched _ _ hactive | begun _ _ hactive =>
    rw [hinactive] at hactive
    cases hactive
  | cancelled _ hstatus =>
    rw [hstatus]
    exact Playhead.step_status_of_cancelled hstatus
  | stopped hgone =>
    rw [hplace] at hgone
    cases hgone

end Phase

end Solo

/-! ## Every run -/

namespace Playback

variable {punctual : Prop} {settings : Settings} {history later earlier : List Occurrence}
variable {p q : Playback} {act : Act} {o : Occurrence} {id : SessionId} {s t : Session}
variable {solo solo' : Solo}

/-- Whether a session is cancelled while its playhead stands ready to begin. -/
def Occurrence.forestalls (id : SessionId) (o : Occurrence) : Bool :=
  match o.act with
  | .serve (.cancel i) true => i = id ∧ o.before.ready.any (Task.plays id .opening)
  | _ => false

def statuses (id : SessionId) : List Occurrence → List Status
  | [] => []
  | o :: earlier =>
    match o.after.session? id with
    | none => statuses id earlier
    | some s => s.status.push (statuses id earlier)

theorem statuses_cons (hs : q.session? id = some s) :
    statuses id (⟨p, act, q⟩ :: history) = s.status.push (statuses id history) := by
  simp only [statuses, hs]

theorem Shows.phase_step (hshows : p.Shows id solo) {story : List Beat}
    (hrun : Solo.Run punctual settings id story solo) {forestalled : Prop}
    {statuses : List Status} (hphase : solo.Phase forestalled statuses)
    (hforestalled : Occurrence.forestalls id ⟨p, act, q⟩ = true → forestalled)
    (hseen : Occurrence.Seen punctual id ⟨p, act, q⟩ solo solo') :
    solo'.Phase forestalled (solo'.session.status.push statuses) := by
  cases hseen with
  | beside => exact hphase.congr rfl rfl rfl
  | @asked happening _ hasked hbeats =>
    refine hphase.asked hasked fun hcancelled head hhead hstage => hforestalled ?_
    have hact : act = .serve (.cancel id) true := (act_of_beats hbeats).2 hcancelled
    have hplays := hshows.plays hrun hhead (.inl hstage)
    rw [hstage] at hplays
    simp [Occurrence.forestalls, hact, hplays]
  | @played head hact hplace => exact hphase.played hrun.cancelled_iff hplace p.surroundings
  | @passed time => exact hphase.congr (solo.place.head?_wakeAt time) rfl rfl

theorem Run.phase (run : Run punctual settings history p) (id : SessionId) :
    (p.Lacks id ∧ story id history = [] ∧ statuses id history = []) ∨
      ∃ solo, p.Shows id solo ∧ Solo.Run punctual settings id (story id history) solo ∧
        solo.Phase (∃ o ∈ history, o.forestalls id = true) (statuses id history) := by
  induction run with
  | start => exact .inl ⟨lacks_start settings id, rfl, rfl⟩
  | @step history p q act run hstep ih =>
    rw [story_cons]
    rcases ih with ⟨hlacks, hstory, hstatuses⟩ | ⟨solo, hshows, hrun, hphase⟩
    · rw [hstory, List.append_nil]
      rcases hlacks.steps hstep with ⟨hbeats, hlacks'⟩ | ⟨start, script, lines, hbeats, hshows⟩
      · have hsame : statuses id (⟨p, act, q⟩ :: history) = statuses id history := by
          simp only [statuses, hlacks'.session]
        rw [hbeats, hsame]
        exact .inl ⟨hlacks', rfl, hstatuses⟩
      · have hstatus : (start.prepare script lines).status = .stopped := by
          obtain ⟨_, _, hprepare⟩ := start.prepare_eq script lines
          rw [hprepare]
          rfl
        rw [hbeats, statuses_cons hshows.session, hstatuses, hstatus]
        exact .inr ⟨_, hshows, .launched p.clock p.policy.ignoreLooping start script lines,
          .launched rfl rfl rfl hstatus⟩
    · obtain ⟨solo', hseen, hshows'⟩ := hshows.sees hstep
      refine .inr ⟨solo', hshows', hrun.step (hshows.step run.settings_eq hseen), ?_⟩
      rw [statuses_cons hshows'.session]
      refine hshows.phase_step hrun (hphase.mono ?_) (fun hforestalls => ?_) hseen
      · exact fun ⟨o, ho, hforestalls⟩ => ⟨o, List.mem_cons_of_mem _ ho, hforestalls⟩
      · exact ⟨_, List.mem_cons_self, hforestalls⟩

def Over (p : Playback) (id : SessionId) (status : Status) : Prop :=
  p.isActive id = false ∧ ∃ s, p.session? id = some s ∧ s.status = status

theorem Run.over_step (run : Run punctual settings history p) (hstep : Step punctual p act q)
    {status : Status} (hover : p.Over id status) : q.Over id status := by
  obtain ⟨hinactive, s, hs, hstatus⟩ := hover
  rcases run.phase id with ⟨hlacks, -, -⟩ | ⟨solo, hshows, hrun, hphase⟩
  · rw [hlacks.session] at hs
    cases hs
  · obtain ⟨solo', hseen, hshows'⟩ := hshows.sees hstep
    rw [hshows.session] at hs
    cases hs
    rw [hshows.active] at hinactive
    have hover' : solo'.active = false ∧ solo'.session.status = status := by
      cases hseen with
      | beside => exact ⟨hinactive, hstatus⟩
      | asked hasked =>
        cases hasked with
        | paused hactive | resumed hactive | sought hactive | cancelled hactive =>
          rw [hinactive] at hactive
          cases hactive
      | @played head hact hplace =>
        refine ⟨?_, (hphase.status_of_inactive hinactive hplace p.surroundings).trans hstatus⟩
        simp [Solo.after, hinactive]
      | passed => exact ⟨hinactive, hstatus⟩
    exact ⟨hshows'.active.trans hover'.1, _, hshows'.session, hover'.2⟩

theorem Run.over_later (run : Run punctual settings (later ++ o :: earlier) p) {status : Status}
    (hover : o.after.Over id status) : p.Over id status := by
  induction later generalizing p with
  | nil =>
    cases run with
    | step run hstep => exact hover
  | cons o' later ih =>
    cases run with
    | step run hstep => exact run.over_step hstep (ih run)

/-! ## Numbers -/

def Occurrence.launched? (o : Occurrence) : Option SessionId :=
  match o.act with
  | .serve (.launch script start) _ => (o.before.launch script start).2.toOption
  | _ => none

def launchedIds (history : List Occurrence) : List SessionId :=
  history.filterMap Occurrence.launched?

theorem length_withSession (sessions : List Session) (id : SessionId) (s : Session) :
    (withSession sessions id s).length = sessions.length := by
  unfold withSession
  split
  · rfl
  · exact List.length_set

/-- A step launches a session, which gets the next number and is the last one that is active, or it
gives no number away and takes at most some sessions off those that are active. -/
theorem Step.registry (hstep : Step punctual p act q) :
    (Occurrence.launched? ⟨p, act, q⟩ = some p.nextId ∧ q.active = p.active ++ [p.nextId] ∧
        q.sessions.length = p.sessions.length + 1) ∨
      Occurrence.launched? ⟨p, act, q⟩ = none ∧ q.active.Sublist p.active ∧
        q.sessions.length = p.sessions.length := by
  have hset (r : Playback) (i : SessionId) (t : Session) :
      (r.setSession i t).active = r.active ∧
        (r.setSession i t).sessions.length = r.sessions.length := by
    rw [setSession_eq_withSession]
    exact ⟨rfl, length_withSession _ _ _⟩
  have hchange (i : SessionId) (change : Session → Option Session) :
      (p.change i change).1.active.Sublist p.active ∧
        (p.change i change).1.sessions.length = p.sessions.length := by
    unfold Playback.change changeFound
    split
    · split
      · exact ⟨.refl _, rfl⟩
      · next t _ =>
        rw [(hset p i t).1, (hset p i t).2]
        exact ⟨.refl _, rfl⟩
    · exact ⟨.refl _, rfl⟩
  cases hstep with
  | serve request =>
    cases request with
    | launch script start =>
      simp only [Occurrence.launched?, Playback.serve, launch]
      split
      · split
        · exact .inr ⟨rfl, .refl _, rfl⟩
        · exact .inl ⟨rfl, rfl, List.length_append⟩
      · exact .inr ⟨rfl, .refl _, rfl⟩
    | pause i | resume i | seek i line => exact .inr ⟨rfl, hchange i _⟩
    | cancel i =>
      refine .inr ⟨rfl, ?_⟩
      rw [Playback.serve, cancel_eq]
      split
      · split
        · exact ⟨List.filter_sublist, rfl⟩
        · next t _ =>
          rw [(hset _ i t).1, (hset _ i t).2]
          exact ⟨List.filter_sublist, rfl⟩
      · exact ⟨.refl _, rfl⟩
    | _ => exact .inr ⟨rfl, .refl _, rfl⟩
  | @run before after task hready =>
    refine .inr ⟨rfl, ?_⟩
    rw [runTask_take_eq]
    show (p.taskActive task).Sublist p.active ∧ (p.taskSessions task).length = p.sessions.length
    cases task with
    | play i head =>
      simp only [taskActive, taskSessions]
      split
      · exact ⟨.refl _, rfl⟩
      · refine ⟨?_, length_withSession _ _ _⟩
        split
        · exact List.filter_sublist
        · exact .refl _
    | _ => exact ⟨.refl _, rfl⟩
  | pass => exact .inr ⟨rfl, .refl _, rfl⟩

theorem Run.numbered (run : Run punctual settings history p) :
    ((launchedIds history).Pairwise (fun later earlier => earlier.number < later.number) ∧
        ∀ id ∈ launchedIds history, id.number ≤ p.sessions.length) ∧
      p.active.Pairwise (·.number < ·.number) ∧
        ∀ id ∈ p.active, id.number ≤ p.sessions.length := by
  induction run with
  | start => exact ⟨⟨.nil, nofun⟩, .nil, nofun⟩
  | @step history p q act run hstep ih =>
    obtain ⟨⟨hlaunched, hgiven⟩, hactive, hbound⟩ := ih
    rcases hstep.registry with ⟨hid, hq, hlength⟩ | ⟨hid, hq, hlength⟩
    · have hids : launchedIds (⟨p, act, q⟩ :: history) = p.nextId :: launchedIds history := by
        rw [launchedIds, List.filterMap_cons, hid]
        rfl
      rw [hids, hq, hlength]
      refine ⟨⟨hlaunched.cons fun id hmem => Nat.lt_succ_of_le (hgiven id hmem), ?_⟩, ?_, ?_⟩
      · intro id hmem
        rcases List.mem_cons.1 hmem with rfl | hmem
        · exact Nat.le_refl _
        · exact Nat.le_succ_of_le (hgiven id hmem)
      · rw [List.pairwise_append]
        refine ⟨hactive, List.pairwise_singleton _ _, fun id hmem next hnext => ?_⟩
        rw [List.mem_singleton.1 hnext]
        exact Nat.lt_succ_of_le (hbound id hmem)
      · intro id hmem
        rcases List.mem_append.1 hmem with hmem | hmem
        · exact Nat.le_succ_of_le (hbound id hmem)
        · rw [List.mem_singleton.1 hmem]
          exact Nat.le_refl _
    · have hids : launchedIds (⟨p, act, q⟩ :: history) = launchedIds history := by
        rw [launchedIds, List.filterMap_cons, hid]
        rfl
      rw [hids, hlength]
      exact ⟨⟨hlaunched, hgiven⟩, hactive.sublist hq, fun id hmem => hbound id (hq.subset hmem)⟩

/-- Numbers of sessions only grow, and those that are active stand in order. Whenever all tasks wait, a
session is active if and only if it plays or is paused. The status of a session follows the diagram,
and says whether it was cancelled. A session that is not active any more never is again, and keeps
its status. -/
theorem Run.follows_diagram (run : Run punctual settings history p) :
    (launchedIds history).Pairwise (fun later earlier => earlier.number < later.number) ∧
      p.active.Pairwise (·.number < ·.number) ∧
      ∀ id s, p.session? id = some s →
        (p.ready = [] → (p.isActive id = true ↔ s.status = .playing ∨ s.status = .paused)) ∧
          (s.cancelled = true ↔ s.status = .cancelled) ∧
          (statuses id history).head? = some s.status ∧
          Diagram (∃ o ∈ history, o.forestalls id = true)
            (nextIndex s.program (story id history) = s.program.commands.length)
            (statuses id history) ∧
          ∀ later o earlier t, history = later ++ o :: earlier → o.after.session? id = some t →
            o.after.isActive id = false → p.isActive id = false ∧ s.status = t.status := by
  refine ⟨run.numbered.1.1, run.numbered.2.1, fun id s hs => ?_⟩
  rcases run.phase id with ⟨hlacks, -, -⟩ | ⟨solo, hshows, hrun, hphase⟩
  · rw [hlacks.session] at hs
    cases hs
  · have hsession := hshows.session
    rw [hs] at hsession
    cases hsession
    refine ⟨fun hready => ?_, hrun.cancelled_iff, hphase.head?_eq, ?_, ?_⟩
    · rw [hshows.active]
      refine hphase.active_iff fun head hhead hstage => ?_
      have hplays := hshows.plays hrun hhead (.inl hstage)
      rw [hready] at hplays
      cases hplays
    · refine hphase.diagram fun hgone hstopped => ?_
      rcases (hrun.ordered.gone hgone).2 with hcancelled | ⟨-, hlast⟩
      · rw [hstopped] at hcancelled
        cases hcancelled
      · exact hlast
    · rintro later o earlier t rfl ht hinactive
      obtain ⟨hover, s', hs', hstatus⟩ := run.over_later ⟨hinactive, t, ht, rfl⟩
      rw [hs] at hs'
      cases hs'
      exact ⟨hover, hstatus⟩

/-- Two sessions. The first one plays to its end, and the second one is cancelled in a pause. -/
def parted : List Occurrence × Playback :=
  let first := ask (.launch (.inline "first" "/a <wait.0.02>") (.top none)) ([], start {})
  let begun := follow (fun _ => 0) 10 first.1 first.2
  let second := ask (.launch (.inline "second" "/b <wait.1>") (.top none)) begun
  let both := follow (fun _ => 0) 10 second.1 second.2
  let paused := ask (.pause ⟨2⟩) (wait 5 both)
  let cancelled := ask (.cancel ⟨2⟩) (wait 10 paused)
  follow (fun _ => 100) 20 cancelled.1 cancelled.2

theorem run_parted : Run True {} parted.1 parted.2 := by
  have hfirst := Run.launched True {} (.inline "first" "/a <wait.0.02>") (.top none)
  have hsecond := (hfirst.follow (fun _ => 0) 10).ask
    (.launch (.inline "second" "/b <wait.1>") (.top none))
  have hpaused := ((hsecond.follow (fun _ => 0) 10).wait 5 fun _ => by decide +kernel).ask
    (.pause ⟨2⟩)
  have hcancelled := (hpaused.wait 10 fun _ => by decide +kernel).ask (.cancel ⟨2⟩)
  exact hcancelled.follow (fun _ => 100) 20

theorem follows_diagram_parted :
    launchedIds parted.1 = [⟨2⟩, ⟨1⟩] ∧
      statuses ⟨1⟩ parted.1 = [.stopped, .playing, .stopped] ∧
      statuses ⟨2⟩ parted.1 = [.cancelled, .paused, .playing, .stopped] ∧
      ∃ s t, parted.2.session? ⟨1⟩ = some s ∧ parted.2.session? ⟨2⟩ = some t ∧
        nextIndex s.program (story ⟨1⟩ parted.1) = s.program.commands.length ∧
        ¬s.cancelled = true ∧ t.cancelled = true := by
  have hids : launchedIds parted.1 = [⟨2⟩, ⟨1⟩] := by decide +kernel
  have hfirst : statuses ⟨1⟩ parted.1 = [.stopped, .playing, .stopped] := by decide +kernel
  have hsecond : statuses ⟨2⟩ parted.1 = [.cancelled, .paused, .playing, .stopped] := by
    decide +kernel
  have hsome : (parted.2.session? ⟨1⟩).isSome ∧ (parted.2.session? ⟨2⟩).isSome := by decide +kernel
  obtain ⟨s, hs⟩ := Option.isSome_iff_exists.1 hsome.1
  obtain ⟨t, ht⟩ := Option.isSome_iff_exists.1 hsome.2
  obtain ⟨-, hcancelled, hstatus, hdiagram, -⟩ := run_parted.follows_diagram.2.2 ⟨1⟩ s hs
  obtain ⟨-, hcancelled', hstatus', -⟩ := run_parted.follows_diagram.2.2 ⟨2⟩ t ht
  rw [hfirst] at hstatus hdiagram
  rw [hsecond] at hstatus'
  refine ⟨hids, hfirst, hsecond, s, t, hs, ht, ?_, ?_, ?_⟩
  · cases hdiagram with
    | lively h => cases h
    | stopped _ hout => exact hout
  · rw [hcancelled, ← Option.some.inj hstatus]
    decide
  · rw [hcancelled', ← Option.some.inj hstatus']

def forestalled : List Occurrence × Playback :=
  let launched := ask (.launch (.inline "first" "/a <wait.1>") (.top none)) ([], start {})
  let cancelled := ask (.cancel ⟨1⟩) launched
  follow (fun _ => 0) 10 cancelled.1 cancelled.2

theorem run_forestalled : Run True {} forestalled.1 forestalled.2 := by
  have hlaunched := Run.launched True {} (.inline "first" "/a <wait.1>") (.top none)
  exact (hlaunched.ask (.cancel ⟨1⟩)).follow (fun _ => 0) 10

def blank : List Occurrence × Playback :=
  let launched := ask (.launch (.inline "blank" "") (.top none)) ([], start {})
  follow (fun _ => 0) 10 launched.1 launched.2

theorem run_blank : Run True {} blank.1 blank.2 := by
  have hlaunched := Run.launched True {} (.inline "blank" "") (.top none)
  exact hlaunched.follow (fun _ => 0) 10

/-- A session may be cancelled without ever having played, which the diagram allows only to those that
were forestalled, and it may stop without having had a last command to run past. -/
theorem over_without_a_command :
    (Run True {} forestalled.1 forestalled.2 ∧ forestalled.2.ready = [] ∧
      statuses ⟨1⟩ forestalled.1 = [.cancelled, .stopped] ∧
      ∀ ranOut, ¬Diagram False ranOut (statuses ⟨1⟩ forestalled.1)) ∧
    (Run True {} blank.1 blank.2 ∧ blank.2.ready = [] ∧
      statuses ⟨1⟩ blank.1 = [.stopped, .playing, .stopped] ∧
      ∀ s, blank.2.session? ⟨1⟩ = some s → s.program.commands = []) := by
  have hstatuses : statuses ⟨1⟩ forestalled.1 = [.cancelled, .stopped] := by decide +kernel
  have hcommands : (blank.2.session? ⟨1⟩).map (·.program.commands) = some [] := by decide +kernel
  refine ⟨⟨run_forestalled, by decide +kernel, hstatuses, fun ranOut hdiagram => ?_⟩,
    ⟨run_blank, by decide +kernel, by decide +kernel, fun s hs => ?_⟩⟩
  · rw [hstatuses] at hdiagram
    cases hdiagram with
    | lively h => cases h
    | cancelled _ hbegun => exact hbegun rfl
  · rw [hs] at hcommands
    exact Option.some.inj hcommands

end Playback

end Choreo
