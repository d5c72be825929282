import Choreo.Proofs.Playback.Progress
import Mathlib.Data.List.Basic

/-!
# The order of the commands

Playing keeps the position that comes next in several places, and requests change them while the
playhead sleeps. No command is left out or repeated by that, and no seek is forgotten.
-/

namespace Choreo

theorem Start.prepare_upcoming (start : Start) (script : ScriptId) (lines : List String)
    (h : Playhead) (hstage : h.stage = .opening) :
    (start.prepare script lines).upcoming h =
      start.first (start.prepare script lines).program := by
  cases start with
  | top filter =>
    simp [Start.prepare, Session.create, Session.upcoming, Playhead.waits, hstage, first]
  | line number =>
    simp only [Start.prepare, Session.seek?]
    have hprogram : (Session.create script (Start.line number).filter?
      (.compile lines (Start.line number).filter?)).program =
      .compile lines (Start.line number).filter? := rfl
    cases htarget : (Session.create script (Start.line number).filter?
      (.compile lines (Start.line number).filter?)).program.positionOfLine? number with
    | none =>
      rw [hprogram] at htarget
      simp [Session.create, Session.upcoming, Playhead.waits, hstage, first, htarget]
    | some target =>
      rw [hprogram] at htarget
      simp [Session.create, Session.upcoming, first, htarget]

/-! ## The run of a session -/

section Story

variable {punctual : Prop} {settings : Settings} {id : SessionId} {program : Program}
variable {story beats : List Beat} {solo solo' : Solo} {beat : Beat}

def Place.head? : Place → Option Playhead
  | .ready head | .asleep _ head => some head
  | .gone => none

theorem Place.head?_ready {place : Place} {head : Playhead} (hplace : place = .ready head) :
    place.head? = some head := by
  rw [hplace]
  rfl

theorem Next.head?_place (next : Next) (clock : Nat) : (next.place clock).head? = next.head? := by
  cases next <;> rfl

theorem Place.head?_wakeAt (place : Place) (time : Nat) :
    (place.wakeAt time).head? = place.head? := by
  cases place with
  | asleep wake head =>
    rw [wakeAt]
    split <;> rfl
  | _ => rfl

namespace Solo

structure Ordered (settings : Settings) (id : SessionId) (story : List Beat) (solo : Solo) :
    Prop where
  told : Told solo.session.program settings id story
  next : ∀ head, solo.place.head? = some head →
    nextIndex solo.session.program story = solo.session.upcoming head
  opening : ∀ head, solo.place.head? = some head → head.stage = .opening →
    solo.session.status = .stopped ∨ solo.session.status = .cancelled
  playing : solo.place.head? ≠ none → ∀ beat ∈ story, beat.ends = false
  gone : solo.place.head? = none → solo.active = false ∧
    (solo.session.status = .cancelled ∨ solo.session.status = .stopped ∧
      nextIndex solo.session.program story = solo.session.program.commands.length)

namespace Ordered

theorem present (h : Ordered settings id story solo) (hactive : solo.active = true) :
    solo.place.head? ≠ none := by
  intro hgone
  have hinactive := (h.gone hgone).1
  rw [hactive] at hinactive
  cases hinactive

theorem turn (h : Ordered settings id story solo) {head : Playhead}
    (hplace : solo.place = .ready head) (hstage : head.stage = .turn) :
    nextIndex solo.session.program story = solo.session.target := by
  rw [h.next head (Place.head?_ready hplace), Playhead.upcoming_of_turn hstage]

theorem quiet (h : Ordered settings id story solo) (hactive : solo.active = true)
    {ignoreLooping : Bool} (happening : Happening)
    (hquiet : (Beat.mk solo.clock ignoreLooping happening).Quiet) {t : Session} {active : Bool}
    (hprogram : t.program = solo.session.program) (hindex : t.index = solo.session.index)
    (hseek : t.pendingSeek = solo.session.pendingSeek)
    (hopening : solo.session.status = .stopped ∨ solo.session.status = .cancelled →
      t.status = .stopped ∨ t.status = .cancelled) :
    Ordered settings id (⟨solo.clock, ignoreLooping, happening⟩ :: story)
      { solo with session := t, active } := by
  have hquiets : ∀ b ∈ [Beat.mk solo.clock ignoreLooping happening], b.Quiet := by
    intro b hb
    rw [List.mem_singleton.1 hb]
    exact hquiet
  obtain ⟨htold, -⟩ := h.told.quiet hquiets
  refine { told := ?_, next := ?_, opening := ?_, playing := ?_, gone := ?_ }
  · show Told t.program settings id _
    rw [hprogram]
    exact htold
  · intro head hhead
    show nextIndex t.program _ = t.upcoming head
    rw [hprogram, hquiet.nextIndex, h.next head hhead, Session.upcoming, Session.upcoming, hseek,
      hindex]
  · intro head hhead hstage
    exact hopening (h.opening head hhead hstage)
  · intro hplace b hb
    rcases List.mem_cons.1 hb with rfl | hmem
    · exact hquiet.ends
    · exact h.playing hplace b hmem
  · intro hgone
    exact absurd hgone (h.present hactive)

theorem sought (h : Ordered settings id story solo) (hactive : solo.active = true) {line : Nat}
    (ignoreLooping : Bool) {t : Session} (hseek : solo.session.seek? line = some t) :
    Ordered settings id (⟨solo.clock, ignoreLooping, .sought line⟩ :: story)
      { solo with session := t } := by
  obtain ⟨target, htarget, -, rfl⟩ := Session.eq_of_seek? hseek
  have hnext : nextIndex solo.session.program
      (⟨solo.clock, ignoreLooping, .sought line⟩ :: story) = target := by
    simp [nextIndex, htarget]
  have hbound : target ≤ solo.session.program.commands.length :=
    Nat.le_of_lt (positionOfLine?_lt htarget)
  rw [← hnext] at hbound
  refine
    { told := h.told.cons rfl rfl hbound
      next := ?_
      opening := h.opening
      playing := ?_
      gone := ?_ }
  · intro head hhead
    simp only
    rw [hnext]
    simp [Session.upcoming]
  · intro hplace b hb
    rcases List.mem_cons.1 hb with rfl | hmem
    · exact rfl
    · exact h.playing hplace b hmem
  · intro hgone
    exact absurd hgone (h.present hactive)

theorem mem_notes {events : List Event} {time : Nat} {ignoreLooping : Bool}
    (hbeat : beat ∈ (events.map (Beat.note time ignoreLooping)).reverse) :
    ∃ event ∈ events, Beat.note time ignoreLooping event = beat :=
  List.mem_map.1 (List.mem_reverse.1 hbeat)

theorem quiet_notes {events : List Event} (hevents : ∀ event ∈ events, event.Quiet) (time : Nat)
    (ignoreLooping : Bool) :
    ∀ beat ∈ (events.map (Beat.note time ignoreLooping)).reverse, beat.Quiet := by
  intro beat hbeat
  obtain ⟨event, hevent, rfl⟩ := mem_notes hbeat
  exact hevents event hevent

theorem notes_append (first rest : List Event) (time : Nat) (ignoreLooping : Bool) :
    ((first ++ rest).map (Beat.note time ignoreLooping)).reverse ++ story =
      (rest.map (Beat.note time ignoreLooping)).reverse ++
        ((first.map (Beat.note time ignoreLooping)).reverse ++ story) := by
  rw [List.map_append, List.reverse_append, List.append_assoc]

theorem ends_of_append {first : List Beat} (hfirst : ∀ beat ∈ first, beat.ends = false)
    (hstory : ∀ beat ∈ story, beat.ends = false) : ∀ beat ∈ first ++ story, beat.ends = false := by
  intro beat hbeat
  rcases List.mem_append.1 hbeat with hmem | hmem
  · exact hfirst beat hmem
  · exact hstory beat hmem

theorem ends_of_executed {first : List Event} (hfirst : ∀ event ∈ first, event.Quiet) (i : Nat)
    (envelopes : List Envelope) (time : Nat) (ignoreLooping : Bool) :
    ∀ beat ∈ ((first ++ .reached id (.executed i) :: envelopes.map Event.sent).map
      (Beat.note time ignoreLooping)).reverse, beat.ends = false := by
  intro beat hbeat
  obtain ⟨event, hevent, rfl⟩ := mem_notes hbeat
  rcases List.mem_append.1 hevent with hmem | hmem
  · have hquiet := quiet_notes hfirst time ignoreLooping (Beat.note time ignoreLooping event)
    apply Beat.Quiet.ends
    apply hquiet
    rw [List.mem_reverse]
    exact List.mem_map_of_mem hmem
  · rcases List.mem_cons.1 hmem with rfl | hmem
    · exact rfl
    · obtain ⟨envelope, -, rfl⟩ := List.mem_map.1 hmem
      exact rfl

theorem goesOn {move : Move} {head : Playhead} (hnext : move.next.head? = some head)
    (hstage : head.stage ≠ .opening) (htold : Told move.session.program settings id story)
    (hindex : nextIndex move.session.program story = move.session.upcoming head)
    (hplaying : ∀ beat ∈ story, beat.ends = false) :
    Ordered settings id story (solo.after move) := by
  have hplace : (solo.after move).place.head? = some head :=
    (move.next.head?_place solo.clock).trans hnext
  refine { told := htold, next := ?_, opening := ?_, playing := fun _ => hplaying, gone := ?_ }
  · intro head' hhead'
    rw [hplace] at hhead'
    cases hhead'
    exact hindex
  · intro head' hhead' hopening
    rw [hplace] at hhead'
    cases hhead'
    exact absurd hopening hstage
  · intro hgone
    rw [hplace] at hgone
    cases hgone

theorem ends {move : Move} (hnext : move.next = .ended)
    (htold : Told move.session.program settings id story)
    (hstatus : move.session.status = .cancelled ∨ move.session.status = .stopped ∧
      nextIndex move.session.program story = move.session.program.commands.length) :
    Ordered settings id story (solo.after move) := by
  have hplace : (solo.after move).place.head? = none := by
    refine (move.next.head?_place solo.clock).trans ?_
    rw [hnext]
    rfl
  have hinactive : (solo.after move).active = false := by simp [Solo.after, hnext]
  refine
    { told := htold
      next := ?_
      opening := ?_
      playing := ?_
      gone := fun _ => ⟨hinactive, hstatus⟩ }
  · intro head hhead
    rw [hplace] at hhead
    cases hhead
  · intro head hhead
    rw [hplace] at hhead
    cases hhead
  · intro hplaying
    exact absurd hplace hplaying

theorem played (h : Ordered settings id story solo)
    (hflag : solo.session.cancelled = true ↔ solo.session.status = .cancelled) {head : Playhead}
    {v : Surroundings} (hplace : solo.place = .ready head) (hsettings : v.settings = settings) :
    Ordered settings id
      ((((head.step v solo.session).events id).map
        (Beat.note solo.clock v.ignoreLooping)).reverse ++ story)
      (solo.after (head.step v solo.session)) := by
  have hhead := Place.head?_ready hplace
  have hnext := h.next head hhead
  have hplaying : ∀ beat ∈ story, beat.ends = false := h.playing (by simp [hhead])
  have hprogress := head.step_progress id v solo.session hflag (h.opening head hhead)
  generalize head.step v solo.session = move at hprogress
  cases hprogress with
  | none hhead' hstage hprogram hevents hupcoming =>
    have hquiet := quiet_notes hevents solo.clock v.ignoreLooping
    obtain ⟨htold, hsame⟩ := h.told.quiet hquiet
    rw [← hprogram] at htold hsame hnext
    have hindex := calc
      nextIndex move.session.program (((move.events id).map
          (Beat.note solo.clock v.ignoreLooping)).reverse ++ story) =
        nextIndex move.session.program story := hsame
      _ = solo.session.upcoming head := hnext
      _ = move.session.upcoming _ := hupcoming.symm
    apply goesOn hhead' hstage htold hindex
    apply ends_of_append _ hplaying
    intro beat hbeat
    exact (hquiet beat hbeat).ends
  | @executed head' c hturn hhead' hstage hprogram hcommand hevents hupcoming =>
    -- What is written on arrival is quiet. The command and its envelopes come after it.
    have hfirst := Playhead.quiet_arrivals solo.session id c
    obtain ⟨htold, hsame⟩ := h.told.quiet (quiet_notes hfirst solo.clock v.ignoreLooping)
    obtain ⟨hlt, -⟩ := List.getElem?_eq_some_iff.1 hcommand
    have hat : solo.session.program.envelopesAt settings.host id (solo.session.upcoming head) =
        c.envelopes v.settings.host id := by
      rw [Program.envelopesAt, hcommand, hsettings]
      exact List.flatMap_singleton _ _
    obtain ⟨htold', hfollowing⟩ := htold.executed solo.clock v.ignoreLooping
      (hnext.symm.trans hsame.symm) hlt rfl
    rw [hat, ← notes_append, ← hevents, ← hprogram] at htold' hfollowing
    rw [← hprogram] at hupcoming
    apply goesOn hhead' hstage htold' (hfollowing.trans hupcoming.symm)
    apply ends_of_append _ hplaying
    rw [hevents]
    exact ends_of_executed hfirst _ _ solo.clock v.ignoreLooping
  | @ended first hnone hprogram hfirst hevents hstatus =>
    -- The end leaves the next position as it is, and a playhead that ran out has found none there.
    obtain ⟨htold, hsame⟩ := h.told.quiet (quiet_notes hfirst solo.clock v.ignoreLooping)
    have hended : Told solo.session.program settings id
        ((([Event.reached id .ended].map (Beat.note solo.clock v.ignoreLooping)).reverse) ++
          ((first.map (Beat.note solo.clock v.ignoreLooping)).reverse ++ story)) :=
      htold.cons rfl rfl htold.bound
    have hlast := hended.bound
    have hindex : nextIndex solo.session.program
        ((([Event.reached id .ended].map (Beat.note solo.clock v.ignoreLooping)).reverse) ++
          ((first.map (Beat.note solo.clock v.ignoreLooping)).reverse ++ story)) =
        solo.session.upcoming head := hsame.trans hnext
    rw [← notes_append, ← hevents] at hended hindex hlast
    refine ends hnone (by rw [hprogram]; exact hended) (hstatus.imp_right fun hstopped => ?_)
    have hle := List.getElem?_eq_none_iff.1 hstopped.2
    refine ⟨hstopped.1, ?_⟩
    rw [hprogram]
    omega

end Ordered

theorem Run.ordered (run : Run punctual settings id story solo) :
    Ordered settings id story solo := by
  induction run with
  | launched clock ignoreLooping start script lines =>
    obtain ⟨pendingSeek, epoch, hprepare⟩ := start.prepare_eq script lines
    have hnext := start.prepare_upcoming script lines { lastCheck := clock * 1000000 } rfl
    have hstatus : (start.prepare script lines).status = .stopped := by
      rw [hprepare]
      rfl
    refine
      { told := ?_
        next := ?_
        opening := fun _ _ _ => .inl hstatus
        playing := ?_
        gone := ?_ }
    · refine { order := ⟨?_, trivial⟩, bound := start.first_le _, envelopes := rfl }
      intro i hi
      cases hi
    · intro head hhead
      cases hhead
      exact hnext.symm
    · intro _ beat hbeat
      cases List.mem_singleton.1 hbeat
      exact rfl
    · intro hgone
      cases hgone
  | @step story beats solo solo' run hstep h =>
    cases hstep with
    | idle => exact h
    | paused hactive hpause =>
      obtain ⟨hplaying, rfl⟩ := Session.eq_of_pause? hpause
      refine h.quiet hactive .paused trivial rfl rfl rfl ?_
      intro hopening
      rw [hplaying] at hopening
      simp at hopening
    | resumed hactive hresume =>
      obtain ⟨hpaused, rfl⟩ := Session.eq_of_resume? hresume
      refine h.quiet hactive .resumed trivial rfl rfl rfl ?_
      intro hopening
      rw [hpaused] at hopening
      simp at hopening
    | sought hactive hseek => exact h.sought hactive _ hseek
    | cancelled hactive =>
      obtain ⟨cancelled, hcancel, -⟩ := solo.session.cancel?_getD
      rw [hcancel]
      exact h.quiet hactive .cancelled trivial rfl rfl rfl fun _ => .inr rfl
    | played hplace hnow hsettings => exact h.played run.cancelled_iff hplace hsettings
    | @passed time htime =>
      have hplace := solo.place.head?_wakeAt time
      refine { told := h.told, next := ?_, opening := ?_, playing := ?_, gone := ?_ }
      · intro head hhead
        rw [hplace] at hhead
        exact h.next head hhead
      · intro head hhead
        rw [hplace] at hhead
        exact h.opening head hhead
      · intro hplaying
        rw [hplace] at hplaying
        exact h.playing hplaying
      · intro hgone
        rw [hplace] at hgone
        exact h.gone hgone

theorem Run.program_eq (run : Run punctual settings id story solo)
    (hstep : Step punctual settings id solo beats solo') :
    solo'.session.program = solo.session.program := by
  cases hstep with
  | idle => rfl
  | paused _ hpause =>
    obtain ⟨-, rfl⟩ := Session.eq_of_pause? hpause
    rfl
  | resumed _ hresume =>
    obtain ⟨-, rfl⟩ := Session.eq_of_resume? hresume
    rfl
  | sought _ hseek =>
    obtain ⟨_, -, -, rfl⟩ := Session.eq_of_seek? hseek
    rfl
  | cancelled _ =>
    obtain ⟨cancelled, hcancel, -⟩ := solo.session.cancel?_getD
    rw [hcancel]
  | @played head v hplace _ _ =>
    have hprogress := head.step_progress id v solo.session run.cancelled_iff
      (run.ordered.opening head (Place.head?_ready hplace))
    exact hprogress.keeps_program
  | passed _ => rfl

theorem Run.exists_of_sought (run : Run punctual settings id story solo) (hbeat : beat ∈ story)
    {line : Nat} (hsought : beat.happening = .sought line) :
    ∃ target, solo.session.program.positionOfLine? line = some target := by
  induction run with
  | launched clock ignoreLooping start script lines =>
    rw [List.mem_singleton.1 hbeat] at hsought
    cases hsought
  | step run hstep ih =>
    rw [run.program_eq hstep]
    rcases List.mem_append.1 hbeat with hmem | hmem
    · cases hstep with
      | idle | passed => cases hmem
      | paused | resumed | cancelled =>
        rw [List.mem_singleton.1 hmem] at hsought
        cases hsought
      | sought _ hseek =>
        rw [List.mem_singleton.1 hmem] at hsought
        cases hsought
        obtain ⟨target, htarget, -, -⟩ := Session.eq_of_seek? hseek
        exact ⟨target, htarget⟩
      | played =>
        obtain ⟨event, -, rfl⟩ := Ordered.mem_notes hmem
        cases hsought
    · exact ih hmem

end Solo

end Story

/-! ## The runs of playback -/

def Event.envelope? (id : SessionId) : Event → Option Envelope
  | .sent envelope => if envelope.origin = some id then some envelope else none
  | .reached _ _ => none

namespace Playback

variable {punctual : Prop} {settings : Settings} {id : SessionId} {history : List Occurrence}
variable {p q : Playback} {s : Session} {o : Occurrence} {task : Task}

/-- What is sent on behalf of a session in a step, unless by a padding or a countdown. -/
def Occurrence.envelopes (id : SessionId) (o : Occurrence) : List Envelope :=
  match o.act with
  | .run (.pad _ _ _) | .run (.countdown _ _ _) => []
  | _ => o.events.filterMap (Event.envelope? id)

theorem envelope?_eq_none (htask : task.session? ≠ some id) {event : Event}
    (hevent : event ∈ p.taskEvents task) : event.envelope? id = none := by
  cases event with
  | sent envelope =>
    have horigin := origin_of_mem_taskEvents hevent
    rw [Event.envelope?, horigin, if_neg htask]
  | reached i milestone => rfl

theorem envelope?_eq_sent? (htask : task.session? = some id) {event : Event}
    (hevent : event ∈ p.taskEvents task) (time : Nat) (ignoreLooping : Bool) :
    event.envelope? id = (Beat.note time ignoreLooping event).sent? := by
  cases event with
  | sent envelope =>
    have horigin := origin_of_mem_taskEvents hevent
    rw [Event.envelope?, horigin, if_pos htask]
    rfl
  | reached i milestone => rfl

theorem envelopes_eq_sentOf (hstep : Step punctual o.before o.act o.after) :
    o.envelopes id = sentOf (o.beats id).reverse := by
  have hevents := hstep.events
  rw [Occurrence.envelopes, Occurrence.beats, Occurrence.happenings, sentOf, List.reverse_reverse,
    List.filterMap_map]
  cases hact : o.act with
  | pass time =>
    rw [hact] at hevents
    rw [hevents]
    rfl
  | serve request granted =>
    rw [hact] at hevents
    simp only
    rw [hevents]
    cases granted with
    | false => cases request <;> rfl
    | true =>
      cases request with
      | launch script start | pause i | resume i | seek i line | cancel i =>
        simp only
        split <;> rfl
      | _ => rfl
  | run task =>
    rw [hact, actEvents] at hevents
    cases task with
    | play i head =>
      simp only
      rw [hevents]
      by_cases hi : i = id
      · rw [if_pos hi, List.filterMap_map]
        have hown : (Task.play i head).session? = some id := congrArg some hi
        apply List.filterMap_congr
        intro event hevent
        exact envelope?_eq_sent? hown hevent o.before.clock o.before.policy.ignoreLooping
      · rw [if_neg hi, List.filterMap_nil, List.filterMap_eq_nil_iff]
        intro event hevent
        have hother : (Task.play i head).session? ≠ some id := fun heq => hi (Option.some.inj heq)
        exact envelope?_eq_none hother hevent
    | release ticket command =>
      simp only
      rw [hevents, List.filterMap_nil, List.filterMap_eq_nil_iff]
      exact fun event hevent => envelope?_eq_none (by simp [Task.session?]) hevent
    | _ => rfl

theorem Run.envelopes_eq_sentOf (run : Run punctual settings history p) :
    history.reverse.flatMap (Occurrence.envelopes id) = sentOf (story id history) := by
  induction run with
  | start => rfl
  | @step history p q act run hstep ih =>
    have hsent : Occurrence.envelopes id ⟨p, act, q⟩ =
        sentOf (Occurrence.beats id ⟨p, act, q⟩).reverse :=
      Playback.envelopes_eq_sentOf (o := ⟨p, act, q⟩) hstep
    rw [List.reverse_cons, List.flatMap_append, ih, List.flatMap_singleton, hsent, story_cons,
      sentOf_append]

theorem length_decorations (host : HostCommands) : host.decorations.length = 12 := by
  simp [HostCommands.decorations]

/-- Whatever is asked for in between, each command that a session executes is the next one after what
has happened so far, and a seek is only granted to a line with a command. The session ends by itself
only when there is no next command. Apart from paddings and countdowns, what is sent on its behalf is
what its commands say, in this order. -/
theorem Run.plays_in_order (run : Run punctual settings history p)
    (hs : p.session? id = some s) :
    (∀ later beat earlier i, story id history = later ++ beat :: earlier →
        beat.executed? = some i →
        i = nextIndex s.program earlier ∧ i < s.program.commands.length) ∧
      (∀ beat ∈ story id history, ∀ line, beat.happening = .sought line →
        ∃ target, s.program.positionOfLine? line = some target) ∧
      ((∃ beat ∈ story id history, beat.ends = true) → s.status = .stopped →
        nextIndex s.program (story id history) = s.program.commands.length) ∧
      history.reverse.flatMap (Occurrence.envelopes id) =
        (executedOf (story id history)).flatMap (s.program.envelopesAt settings.host id) ∧
      settings.host.decorations.length = 12 := by
  obtain ⟨solo, -, rfl, hrun⟩ := run.apart_of_session? hs
  have hordered := hrun.ordered
  refine ⟨?_, ?_, ?_, ?_, length_decorations _⟩
  · intro later beat earlier i hstory hi
    have horder := hordered.told.order
    rw [hstory] at horder
    exact horder.of_append hi
  · intro beat hbeat line hsought
    exact hrun.exists_of_sought hbeat hsought
  · rintro ⟨beat, hbeat, hends⟩ hstopped
    by_cases hgone : solo.place.head? = none
    · rcases hordered.gone hgone with ⟨-, hcancelled | ⟨-, hlast⟩⟩
      · rw [hstopped] at hcancelled
        cases hcancelled
      · exact hlast
    · have hplaying := hordered.playing hgone beat hbeat
      rw [hends] at hplaying
      cases hplaying
  · rw [run.envelopes_eq_sentOf]
    exact hordered.told.envelopes

/-- A script that is played from its second line, and its first line is asked for meanwhile. -/
def seeking : List Occurrence × Playback :=
  let launched := ask (.launch (.inline "hello" "Hello <wait.1>\nWorld") (.line 2)) ([], start {})
  let played := follow (fun _ => 5) 3 launched.1 launched.2
  let sought := ask (.seek ⟨1⟩ 1) played
  follow (fun _ => 2000) 100 sought.1 sought.2

theorem run_seeking : Run True {} seeking.1 seeking.2 := by
  have hlaunch := Run.launched True {} (.inline "hello" "Hello <wait.1>\nWorld") (.line 2)
  have hseek := Run.ask (hlaunch.follow (fun _ => 5) 3) (.seek ⟨1⟩ 1)
  exact hseek.follow (fun _ => 2000) 100

theorem plays_in_order_seeking :
    ∃ s, seeking.2.session? ⟨1⟩ = some s ∧
      nextIndex s.program (story ⟨1⟩ seeking.1) = s.program.commands.length ∧
      seeking.1.reverse.flatMap (Occurrence.envelopes ⟨1⟩) =
        [1, 0, 1].flatMap (s.program.envelopesAt {} ⟨1⟩) := by
  have hsome : (seeking.2.session? ⟨1⟩).isSome = true := by decide +kernel
  have hexecuted : executedOf (story ⟨1⟩ seeking.1) = [1, 0, 1] := by decide +kernel
  have hstopped : (seeking.2.session? ⟨1⟩).map Session.status = some .stopped := by decide +kernel
  have hends : (story ⟨1⟩ seeking.1).any Beat.ends = true := by decide +kernel
  obtain ⟨s, hs⟩ := Option.isSome_iff_exists.1 hsome
  obtain ⟨-, -, hended, henvelopes, -⟩ := run_seeking.plays_in_order hs
  rw [hexecuted] at henvelopes
  rw [hs] at hstopped
  exact ⟨s, hs, hended (List.any_eq_true.1 hends) (Option.some.inj hstopped), henvelopes⟩

end Playback

end Choreo
