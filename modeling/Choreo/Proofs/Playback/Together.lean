import Choreo.Proofs.Playback.Addressed
import Choreo.Proofs.Playback.Lifecycle
import Choreo.Proofs.Playback.Refusals

/-!
# Operations on many sessions

To pause, resume or cancel many sessions their numbers are listed first, and then one after another is
asked, while cancelling takes sessions off those that the list was made of. What a session answers
depends on the time and on this session alone, and so does what becomes of it. Whatever the order, all
of them end as each would have ended by itself, and nobody else notices.
-/

namespace Choreo

/-! ## The script of a session -/

theorem Session.execute_script (s : Session) (v : Surroundings) (i : Nat) (c : Command) :
    (s.execute v i c).1.script = s.script := by
  obtain ⟨_, _, h⟩ := s.execute_fst v i c
  rw [h]

theorem Playhead.step_script (h : Playhead) (v : Surroundings) (s : Session) :
    (h.step v s).session.script = s.script := by
  have houtcome := h.step_outcome v s
  generalize h.step v s = move at houtcome
  cases houtcome with
  | began _ hbegin =>
    obtain ⟨-, -, rfl⟩ := Session.eq_of_begin? hbegin
    rfl
  | stopped _ hstop =>
    obtain ⟨_, _, rfl⟩ := Session.eq_of_stopped? hstop
    rfl
  | ranOut =>
    show s.applySeek.script = s.script
    rw [s.applySeek_eq]
  | wentBack | wentOn | held => exact s.execute_script v _ _
  | _ => rfl

namespace Playback

variable {punctual : Prop} {settings : Settings} {history : List Occurrence}
variable {p q : Playback} {a b i id : SessionId} {ids others : List SessionId} {s t : Session}
variable {act : Playback → SessionId → Playback × Bool} {script : ScriptId} {deed : Act}

/-! ## What is done to one session -/

/-- What a session becomes, if it changes, and whether it is taken off those that are active. -/
structure Edit where
  session? : Option Session
  gone : Bool

namespace Edit

def onSessions (e : Edit) (id : SessionId) (sessions : List Session) : List Session :=
  match e.session? with
  | none => sessions
  | some t => withSession sessions id t

def onActive (e : Edit) (id : SessionId) (active : List SessionId) : List SessionId :=
  if e.gone then active.filter (· ≠ id) else active

end Edit

def edit (p : Playback) (id : SessionId) (e : Edit) : Playback :=
  { p with sessions := e.onSessions id p.sessions, active := e.onActive id p.active }

theorem withSession_comm (hne : a ≠ b) (sessions : List Session) (s t : Session) :
    withSession (withSession sessions a s) b t = withSession (withSession sessions b t) a s := by
  have hnumber : a.number ≠ b.number := fun h => hne (by cases a; cases b; cases h; rfl)
  unfold withSession
  cases ha : a.number with
  | zero => rfl
  | succ m =>
    cases hb : b.number with
    | zero => rfl
    | succ n => exact List.set_comm s t (by omega)

theorem edit_comm (hne : a ≠ b) (p : Playback) (d e : Edit) :
    (p.edit a d).edit b e = (p.edit b e).edit a d := by
  have hsessions : e.onSessions b (d.onSessions a p.sessions) =
      d.onSessions a (e.onSessions b p.sessions) := by
    unfold Edit.onSessions
    cases d.session? with
    | none => rfl
    | some s =>
      cases e.session? with
      | none => rfl
      | some t => exact withSession_comm hne p.sessions s t
  have hactive : e.onActive b (d.onActive a p.active) = d.onActive a (e.onActive b p.active) := by
    unfold Edit.onActive
    split
    · split
      · exact List.filter_comm _ _ _
      · rfl
    · rfl
  simp only [edit, hsessions, hactive]

theorem alike_edit (hne : i ≠ id) (p : Playback) (e : Edit) : Alike id p (p.edit i e) where
  clock := rfl
  session := by
    show { p with sessions := e.onSessions i p.sessions }.session? id = p.session? id
    unfold Edit.onSessions
    cases e.session? with
    | none => rfl
    | some t =>
      have hset := session?_setSession_of_ne (p := p) hne.symm t
      rwa [setSession_eq_withSession] at hset
  active := by
    show (e.onActive i p.active).contains id = p.active.contains id
    unfold Edit.onActive
    split
    · simp [hne.symm]
    · rfl
  places := rfl

/-! ## Operations that see one session only -/

theorem Alike.now (h : Alike id p q) : q.now = p.now := by
  rw [Playback.now, Playback.now, h.clock]

/-- An operation whose outcome for a session depends on the time and on this session alone. -/
def Local (act : Playback → SessionId → Playback × Bool) : Prop :=
  ∃ verdict : Instant → Bool → Option Session → Option Edit, ∀ p id,
    act p id = (verdict p.now (p.isActive id) (p.session? id)).elim (p, false) fun e =>
      (p.edit id e, true)

theorem local_change (act : Instant → Session → Option Session) :
    Local fun p id => p.change id (act p.now) := by
  refine ⟨fun now active session? =>
    if active then (session?.bind (act now)).map (⟨some ·, false⟩) else none, fun p id => ?_⟩
  beta_reduce
  unfold change changeFound
  cases p.isActive id with
  | false => rfl
  | true =>
    cases (p.session? id).bind (act p.now) with
    | none => rfl
    | some t =>
      show (p.setSession id t, true) = _
      rw [setSession_eq_withSession]
      rfl

theorem local_pause : Local pause := local_change fun now s => s.pause? now

theorem local_resume : Local resume := local_change fun now s => s.resume? now

theorem local_cancel : Local cancel := by
  refine ⟨fun _ active session? =>
    if active then some ⟨session?.bind Session.cancel?, true⟩ else none, fun p id => ?_⟩
  beta_reduce
  rw [cancel_eq]
  cases p.isActive id with
  | false => rfl
  | true =>
    cases (p.session? id).bind Session.cancel? with
    | none => rfl
    | some t =>
      show ((p.deactivate id).setSession id t, true) = _
      rw [setSession_eq_withSession]
      rfl

/-- What is left after a list of sessions was treated one by one: each of them is as it would be if it
had been the only one, all others are as they were, and nothing else has changed. -/
structure Piecemeal (act : Playback → SessionId → Playback × Bool) (ids : List SessionId)
    (p : Playback) (done : Playback × Nat) : Prop where
  count : done.2 = ids.countP fun id => (act p id).2
  treated : ∀ id ∈ ids, Alike id (act p id).1 done.1
  others : ∀ id ∉ ids, Alike id p done.1
  rest : done.1 = { p with sessions := done.1.sessions, active := done.1.active }

namespace Local

theorem alike (h : Local act) (hne : i ≠ id) (p : Playback) : Alike id p (act p i).1 := by
  obtain ⟨verdict, hact⟩ := h
  rw [hact p i]
  cases verdict p.now (p.isActive i) (p.session? i) with
  | none => exact .refl id p
  | some e => exact alike_edit hne p e

theorem rest (h : Local act) (p : Playback) (id : SessionId) :
    (act p id).1 = { p with sessions := (act p id).1.sessions, active := (act p id).1.active } := by
  obtain ⟨verdict, hact⟩ := h
  rw [hact p id]
  cases verdict p.now (p.isActive id) (p.session? id) <;> rfl

theorem comm (h : Local act) (hne : a ≠ b) (p : Playback) :
    (act (act p a).1 b).1 = (act (act p b).1 a).1 ∧ (act (act p a).1 b).2 = (act p b).2 := by
  have hb := h.alike hne p
  have ha := h.alike hne.symm p
  obtain ⟨verdict, hact⟩ := h
  rw [hact (act p a).1 b, hb.now, hb.session, hb.active, hact (act p b).1 a, ha.now, ha.session,
    ha.active, hact p a, hact p b]
  cases verdict p.now (p.isActive a) (p.session? a) with
  | none => cases verdict p.now (p.isActive b) (p.session? b) <;> exact ⟨rfl, rfl⟩
  | some d =>
    cases verdict p.now (p.isActive b) (p.session? b) with
    | none => exact ⟨rfl, rfl⟩
    | some e => exact ⟨edit_comm hne p d e, rfl⟩

theorem forEach_swap (h : Local act) (p : Playback) (a b : SessionId) (ids : List SessionId) :
    p.forEach act (a :: b :: ids) = p.forEach act (b :: a :: ids) := by
  by_cases hne : a = b
  · rw [hne]
  · obtain ⟨hstate, hgranted⟩ := h.comm hne p
    have hgranted' := (h.comm (Ne.symm hne) p).2
    simp only [forEach, hstate, hgranted, hgranted']
    rw [Nat.add_right_comm]

theorem forEach_perm (h : Local act) (hperm : ids.Perm others) (p : Playback) :
    p.forEach act ids = p.forEach act others := by
  induction hperm generalizing p with
  | nil => rfl
  | cons id _ ih => simp only [forEach, ih]
  | swap a b ids => exact h.forEach_swap p b a ids
  | trans _ _ ih ih' => exact (ih p).trans (ih' p)

theorem piecemeal (h : Local act) (hids : ids.Nodup) (p : Playback) :
    Piecemeal act ids p (p.forEach act ids) := by
  induction ids generalizing p with
  | nil => exact ⟨rfl, nofun, fun id _ => .refl id p, rfl⟩
  | cons a ids ih =>
    obtain ⟨hfresh, hids⟩ := List.nodup_cons.1 hids
    have hrest := ih hids (act p a).1
    have hne (id : SessionId) (hid : id ∈ ids) : a ≠ id := fun heq => hfresh (heq ▸ hid)
    refine ⟨?_, fun id hid => ?_, fun id hid => ?_, ?_⟩
    · have hcount : (ids.countP fun id => (act (act p a).1 id).2) =
          ids.countP fun id => (act p id).2 :=
        List.countP_congr fun id hid => by rw [(h.comm (hne id hid) p).2]
      simp only [forEach, List.countP_cons, hrest.count, hcount]
    · rcases List.mem_cons.1 hid with rfl | hid
      · exact hrest.others id hfresh
      · -- The first one might as well have been asked after this one.
        have hafter := h.alike (hne id hid) (act p id).1
        rw [← (h.comm (hne id hid) p).1] at hafter
        exact hafter.trans (hrest.treated id hid)
    · rw [List.mem_cons, not_or] at hid
      exact (h.alike (Ne.symm hid.1) p).trans (hrest.others id hid.2)
    · have hlast := hrest.rest
      have hdone : (p.forEach act (a :: ids)).1 = ((act p a).1.forEach act ids).1 := rfl
      rw [hdone]
      generalize ((act p a).1.forEach act ids).1 = done at hlast ⊢
      rw [h.rest p a] at hlast
      exact hlast

end Local

/-! ## The sessions of a script -/

def script? (p : Playback) (id : SessionId) : Option ScriptId := (p.session? id).map Session.script

def Occurrence.LaunchedFrom (script : ScriptId) (id : SessionId) (o : Occurrence) : Prop :=
  ∃ source start granted, o.act = .serve (.launch source start) granted ∧ source.id = script ∧
    (o.before.launch source start).2 = .ok id

theorem mem_findByScript :
    id ∈ p.findByScript script ↔ p.isActive id = true ∧ p.script? id = some script := by
  rw [findByScript, List.mem_filter, isActive, List.contains_iff_mem, script?]
  cases p.session? id <;> simp

theorem script?_setSession (hs : p.session? i = some s) (hscript : t.script = s.script)
    (id : SessionId) : (p.setSession i t).script? id = p.script? id := by
  unfold script?
  by_cases hid : id = i
  · rw [hid, session?_setSession_self hs t, hs, Option.map_some, Option.map_some, hscript]
  · rw [session?_setSession_of_ne hid t]

theorem script?_change {change : Session → Option Session}
    (hchange : ∀ s t, change s = some t → t.script = s.script) (p : Playback) (i id : SessionId) :
    (p.change i change).1.script? id = p.script? id := by
  rcases change_cases p i change with heq | ⟨s, t, hs, ht, heq⟩
  · rw [heq]
  · rw [heq]
    exact script?_setSession hs (hchange s t ht) id

theorem script?_cancel (p : Playback) (i id : SessionId) :
    (p.cancel i).1.script? id = p.script? id := by
  rw [cancel_eq]
  split
  · split
    · rfl
    · next t ht =>
      obtain ⟨s, hs, hcancel⟩ := Option.bind_eq_some_iff.1 ht
      obtain ⟨_, hgetD, -⟩ := s.cancel?_getD
      rw [hcancel, Option.getD_some] at hgetD
      have hs' : (p.deactivate i).session? i = some s := hs
      have hscript : t.script = s.script := by rw [hgetD]
      exact script?_setSession hs' hscript id
  · rfl

theorem script?_taskSessions (p : Playback) (task : Task) (id : SessionId) :
    { p with sessions := p.taskSessions task }.script? id = p.script? id := by
  cases task with
  | play i head =>
    simp only [taskSessions]
    split
    · rfl
    · next s hs =>
      rw [← setSession_eq_withSession]
      exact script?_setSession hs (head.step_script p.surroundings s) id
  | _ => rfl

theorem launch_outcome (p : Playback) (source : Script) (start : Start) :
    (∃ error, p.launch source start = (p, .error error)) ∨
      ∃ lines, p.launch source start = (p.launched source start lines, .ok p.nextId) := by
  unfold launch
  split
  · split
    · next cause _ => exact .inl ⟨.source cause, rfl⟩
    · next lines _ => exact .inr ⟨lines, rfl⟩
  · exact .inl ⟨.notAllowed, rfl⟩

theorem script?_launched (p : Playback) (source : Script) (start : Start) (lines : List String)
    (id : SessionId) :
    (p.launched source start lines).script? id =
      if id = p.nextId then some source.id else p.script? id := by
  have hsession := session?_append p id (start.prepare source.id lines)
  have hscript : (start.prepare source.id lines).script = source.id := by
    obtain ⟨_, _, hprepare⟩ := start.prepare_eq source.id lines
    rw [hprepare]
    rfl
  show ({ p with
    sessions := p.sessions ++ [start.prepare source.id lines] }.session? id).map _ = _
  rw [hsession, apply_ite (Option.map Session.script), Option.map_some, hscript]
  rfl

theorem script?_launch (p : Playback) (source : Script) (start : Start) (id : SessionId) :
    (p.launch source start).1.script? id = some script ↔
      source.id = script ∧ (p.launch source start).2 = .ok id ∨ p.script? id = some script := by
  rcases launch_outcome p source start with ⟨error, heq⟩ | ⟨lines, heq⟩
  · simp [heq]
  · have hfree : p.script? p.nextId = none := by rw [script?, session?_nextId, Option.map_none]
    simp only [heq, script?_launched, Except.ok.injEq]
    by_cases hid : id = p.nextId
    · simp [hid, hfree]
    · simp [hid, Ne.symm hid]

theorem Step.script?_of_not_launch (hstep : Step punctual p deed q)
    (hdeed : ∀ source start granted, deed ≠ .serve (.launch source start) granted)
    (id : SessionId) : q.script? id = p.script? id := by
  cases hstep with
  | serve request =>
    cases request with
    | launch source start => exact absurd rfl (hdeed source start _)
    | pause i =>
      refine script?_change (fun s t hpause => ?_) p i id
      obtain ⟨-, rfl⟩ := Session.eq_of_pause? hpause
      rfl
    | resume i =>
      refine script?_change (fun s t hresume => ?_) p i id
      obtain ⟨-, rfl⟩ := Session.eq_of_resume? hresume
      rfl
    | seek i line =>
      refine script?_change (fun s t hseek => ?_) p i id
      obtain ⟨_, -, -, rfl⟩ := Session.eq_of_seek? hseek
      rfl
    | cancel i => exact script?_cancel p i id
    | _ => rfl
  | @run before after task hready =>
    rw [runTask_take_eq]
    exact script?_taskSessions p task id
  | pass => rfl

/-- A number gets its script as its session is launched, and never another one. -/
theorem Step.script?_iff (hstep : Step punctual p deed q) :
    q.script? id = some script ↔
      Occurrence.LaunchedFrom script id ⟨p, deed, q⟩ ∨ p.script? id = some script := by
  by_cases hdeed : ∃ source start granted, deed = .serve (.launch source start) granted
  · obtain ⟨source, start, granted, rfl⟩ := hdeed
    cases hstep with
    | serve =>
      refine (script?_launch p source start id).trans (or_congr_left ⟨?_, ?_⟩)
      · rintro ⟨hscript, hid⟩
        exact ⟨source, start, _, rfl, hscript, hid⟩
      · rintro ⟨_, _, _, heq, hscript, hid⟩
        cases heq
        exact ⟨hscript, hid⟩
  · have hother (source : Script) (start : Start) (granted : Bool) :
        deed ≠ .serve (.launch source start) granted :=
      fun heq => hdeed ⟨source, start, granted, heq⟩
    rw [hstep.script?_of_not_launch hother]
    refine (or_iff_right ?_).symm
    rintro ⟨source, start, granted, heq, -⟩
    exact hother source start granted heq

theorem Run.script?_iff (run : Run punctual settings history p) :
    p.script? id = some script ↔ ∃ o ∈ history, o.LaunchedFrom script id := by
  induction run with
  | start => simp [script?, (lacks_start settings id).session]
  | step run hstep ih => rw [hstep.script?_iff, ih, List.exists_mem_cons_iff]

/-! ## Every run -/

/-- What can be done to one session as well as to all that play a script. -/
inductive Control where
  | pause
  | resume
  | cancel

def Control.one : Control → Playback → SessionId → Playback × Bool
  | .pause => Playback.pause
  | .resume => Playback.resume
  | .cancel => Playback.cancel

def Control.ofScript : Control → Playback → ScriptId → Playback × Nat
  | .pause => pauseScript
  | .resume => resumeScript
  | .cancel => cancelScript

theorem Control.local_one (control : Control) : Local control.one := by
  cases control with
  | pause => exact local_pause
  | resume => exact local_resume
  | cancel => exact local_cancel

/-- What is done to the sessions that were found is what would be done to them by their numbers. -/
theorem Control.ofScript_eq (control : Control) (p : Playback) (script : ScriptId) :
    control.ofScript p script = p.forEach control.one (p.findByScript script) := by
  cases control with
  | pause => exact pauseScript_eq p script
  | resume => exact resumeScript_eq p script
  | cancel => rfl

theorem isActive_cancel_self (p : Playback) (id : SessionId) :
    (p.cancel id).1.isActive id = false := by
  rw [cancel_eq]
  split
  · split
    · simp [deactivate, isActive]
    · rw [isActive_setSession]
      simp [deactivate, isActive]
  · next hinactive => simpa using hinactive

theorem Piecemeal.active_eq_nil {done : Playback × Nat}
    (h : Piecemeal cancel p.active p done) : done.1.active = [] := by
  rw [List.eq_nil_iff_forall_not_mem]
  intro id hmem
  have hactive : done.1.isActive id = true := List.contains_iff_mem.2 hmem
  by_cases hid : id ∈ p.active
  · rw [(h.treated id hid).active, isActive_cancel_self] at hactive
    cases hactive
  · rw [(h.others id hid).active] at hactive
    exact hid (List.contains_iff_mem.1 hactive)

/-- The sessions of a script are those active ones that were launched from it, each of them once and the
oldest first. To pause, resume or cancel a script is to ask each of these sessions, in any order, and
so it is with all active sessions that are cancelled, of which none is left. -/
theorem Run.all_like_each (run : Run punctual settings history p) (script : ScriptId) :
    ((p.findByScript script).Pairwise (·.number < ·.number) ∧
      ∀ id, id ∈ p.findByScript script ↔
        p.isActive id = true ∧ ∃ o ∈ history, o.LaunchedFrom script id) ∧
    (∀ control : Control,
      Piecemeal control.one (p.findByScript script) p (control.ofScript p script) ∧
        ∀ ids, ids.Perm (p.findByScript script) →
          p.forEach control.one ids = control.ofScript p script) ∧
    Piecemeal cancel p.active p p.cancelAll ∧
    (∀ ids, ids.Perm p.active → p.forEach cancel ids = p.cancelAll) ∧
    p.cancelAll.1.active = [] := by
  have hactive := run.numbered.2.1
  have hfound : (p.findByScript script).Pairwise (·.number < ·.number) :=
    hactive.sublist List.filter_sublist
  have hnodup {ids : List SessionId} (hids : ids.Pairwise (·.number < ·.number)) : ids.Nodup :=
    hids.imp fun hless heq => Nat.ne_of_lt hless (congrArg SessionId.number heq)
  have hcancelAll : Piecemeal cancel p.active p p.cancelAll :=
    local_cancel.piecemeal (hnodup hactive) p
  refine ⟨⟨hfound, fun id => ?_⟩, fun control => ?_, hcancelAll,
    fun ids hids => local_cancel.forEach_perm hids p, hcancelAll.active_eq_nil⟩
  · rw [mem_findByScript, run.script?_iff]
  · rw [control.ofScript_eq]
    exact ⟨control.local_one.piecemeal (hnodup hfound) p,
      fun ids hids => control.local_one.forEach_perm hids p⟩

/-- Two sessions of a song, of which the older one is paused, and one of a dance. -/
def party : List Occurrence × Playback :=
  let song := ask (.launch (.inline "song" "/a <wait.1>") (.top none)) ([], start {})
  let dance := ask (.launch (.inline "dance" "/b <wait.1>") (.top none)) song
  let again := ask (.launch (.inline "song" "/a <wait.1>") (.top none)) dance
  ask (.pause ⟨1⟩) (follow (fun _ => 0) 30 again.1 again.2)

theorem run_party : Run True {} party.1 party.2 := by
  have hsong := Run.launched True {} (.inline "song" "/a <wait.1>") (.top none)
  have hdance := hsong.ask (.launch (.inline "dance" "/b <wait.1>") (.top none))
  have hagain := hdance.ask (.launch (.inline "song" "/a <wait.1>") (.top none))
  exact (hagain.follow (fun _ => 0) 30).ask (.pause ⟨1⟩)

theorem all_like_each_party :
    party.2.findByScript (.inline "song") = [⟨1⟩, ⟨3⟩] ∧
      (∃ o ∈ party.1, o.LaunchedFrom (.inline "song") ⟨3⟩) ∧
      (party.2.pauseScript (.inline "song")).2 = 1 ∧
      party.2.forEach pause [⟨3⟩, ⟨1⟩] = party.2.pauseScript (.inline "song") ∧
      (party.2.cancelScript (.inline "song")).1.session? ⟨2⟩ = party.2.session? ⟨2⟩ ∧
      party.2.forEach cancel [⟨2⟩, ⟨3⟩, ⟨1⟩] = party.2.cancelAll ∧
      party.2.cancelAll.1.active = [] := by
  have hfound : party.2.findByScript (.inline "song") = [⟨1⟩, ⟨3⟩] := by decide +kernel
  have hactive : party.2.active = [⟨1⟩, ⟨2⟩, ⟨3⟩] := by decide +kernel
  have hpaused : [(⟨1⟩ : SessionId), ⟨3⟩].countP (fun id => (party.2.pause id).2) = 1 := by
    decide +kernel
  obtain ⟨⟨-, hmem⟩, hcontrol, -, hperm, hempty⟩ :=
    Run.all_like_each run_party (.inline "song")
  rw [hfound] at hmem hcontrol
  rw [hactive] at hperm
  refine ⟨hfound, ((hmem ⟨3⟩).1 (by decide)).2, ?_, (hcontrol .pause).2 _ (by decide), ?_,
    hperm _ (by decide), hempty⟩
  · exact (hcontrol .pause).1.count.trans hpaused
  · exact ((hcontrol .cancel).1.others ⟨2⟩ (by decide)).session

end Playback

end Choreo
