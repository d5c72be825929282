import Choreo.Proofs.Playback.Solo

/-!
# Every run seen from one of its sessions

Each step of a playback is, for any one session, a step of that session alone or none at all. From the
steps it follows for runs, so whatever is proved of one session by itself holds of each session of
every playback.
-/

namespace Choreo.Playback

variable {punctual : Prop} {settings : Settings} {history : List Occurrence}
variable {p q : Playback} {id i : SessionId} {s : Session} {solo : Solo} {act : Act}
variable {o : Occurrence} {task : Task}

/-- A step of the playback is a step of the session, or none at all. -/
def Follows (punctual : Prop) (settings : Settings) (p : Playback) (id : SessionId) (solo : Solo)
    (act : Act) (q : Playback) : Prop :=
  ∃ solo', Solo.Step punctual settings id solo (Occurrence.beats id ⟨p, act, q⟩) solo' ∧
    q.Shows id solo'

def Sees (punctual : Prop) (p : Playback) (id : SessionId) (solo : Solo) (act : Act)
    (q : Playback) : Prop :=
  ∃ solo', Occurrence.Seen punctual id ⟨p, act, q⟩ solo solo' ∧ q.Shows id solo'

theorem Shows.beside (h : q.Shows id solo) (hbeats : Occurrence.beats id ⟨p, act, q⟩ = []) :
    p.Sees punctual id solo act q := ⟨solo, .beside hbeats, h⟩

/-! ## Requests that are about another session -/

def Request.target? (p : Playback) : Request → Option SessionId
  | .launch _ _ => some p.nextId
  | .pause i | .resume i | .seek i _ | .cancel i => some i
  | _ => none

theorem session?_append (p : Playback) (id : SessionId) (t : Session) :
    { p with sessions := p.sessions ++ [t] }.session? id =
      if id = p.nextId then some t else p.session? id := by
  have hnext : id = p.nextId ↔ id.number = p.sessions.length + 1 := by
    cases id
    simp [nextId]
  unfold session?
  cases hnumber : id.number with
  | zero => simp [hnext, hnumber]
  | succ n =>
    have hn : id = p.nextId ↔ n = p.sessions.length := by
      rw [hnext, hnumber]
      omega
    simp only [hn]
    by_cases hlast : n = p.sessions.length
    · simp [hlast]
    · rw [if_neg hlast, List.getElem?_append]
      split
      · rfl
      · have hpos : n - p.sessions.length ≠ 0 := by omega
        simp [hpos]
        omega

def launched (p : Playback) (script : Script) (start : Start) (lines : List String) : Playback :=
  { p with
    sessions := p.sessions ++ [start.prepare script.id lines]
    active := p.active ++ [p.nextId]
    ready := p.ready ++ [.play p.nextId { lastCheck := p.now }] }

theorem launch_cases (p : Playback) (script : Script) (start : Start) :
    p.serve (.launch script start) = (p, false) ∨
      ∃ lines, p.serve (.launch script start) = (p.launched script start lines, true) := by
  simp only [serve, launch]
  split
  · split
    · exact .inl rfl
    · next lines _ => exact .inr ⟨lines, rfl⟩
  · exact .inl rfl

theorem alike_launched (hne : p.nextId ≠ id) (script : Script) (start : Start)
    (lines : List String) : Alike id p (p.launched script start lines) where
  clock := rfl
  session := by
    have hsession := session?_append p id (start.prepare script.id lines)
    rw [if_neg hne.symm] at hsession
    exact hsession
  active := by simp [launched, isActive, hne.symm]
  places := by simp [launched, Playback.places, Task.head?_play_of_ne _ hne]

theorem alike_change (hne : i ≠ id) (p : Playback) (change : Session → Option Session) :
    Alike id p (p.change i change).1 := by
  unfold Playback.change changeFound
  split
  · split
    · exact .refl id p
    · exact alike_setSession hne p _
  · exact .refl id p

def deactivate (p : Playback) (id : SessionId) : Playback :=
  { p with active := p.active.filter (· ≠ id) }

theorem alike_deactivate (hne : i ≠ id) (p : Playback) : Alike id p (p.deactivate i) where
  clock := rfl
  session := rfl
  active := by simp [deactivate, isActive, hne.symm]
  places := rfl

theorem Shows.deactivate (h : p.Shows id solo) :
    (p.deactivate id).Shows id { solo with active := false } := by
  refine ⟨h.clock, h.session, ?_, h.places⟩
  simp [Playback.deactivate, isActive]

theorem beside_retire (p : Playback) (id : SessionId) : Beside (p.deactivate id) (p.retire id) :=
  (beside_planRelease _ _ _ _ _).trans (beside_planRelease _ _ _ _ _)

theorem cancel_eq (p : Playback) (id : SessionId) :
    p.cancel id =
      if p.isActive id then
        match (p.session? id).bind Session.cancel? with
        | none => (p.deactivate id, true)
        | some t => ((p.deactivate id).setSession id t, true)
      else (p, false) := rfl

theorem alike_cancel (hne : i ≠ id) (p : Playback) : Alike id p (p.cancel i).1 := by
  rw [cancel_eq]
  split
  · split
    · exact alike_deactivate hne p
    · exact (alike_deactivate hne p).trans (alike_setSession hne _ _)
  · exact .refl id p

/-- A request means nothing to the sessions that it is not about. -/
theorem alike_serve {request : Request} (htarget : request.target? p ≠ some id) :
    Alike id p (p.serve request).1 := by
  have hne (i : SessionId) (hi : request.target? p = some i) : i ≠ id := by
    intro heq
    rw [hi, heq] at htarget
    exact htarget rfl
  cases request with
  | launch script start =>
    rcases launch_cases p script start with hrefused | ⟨lines, hlaunched⟩
    · rw [hrefused]
      exact .refl id p
    · rw [hlaunched]
      exact alike_launched (hne _ rfl) script start lines
  | pause i | resume i | seek i line => exact alike_change (hne i rfl) p _
  | cancel i => exact alike_cancel (hne i rfl) p
  | _ => exact ⟨rfl, rfl, rfl, rfl⟩

theorem beats_of_refused (id : SessionId) (p q : Playback) (request : Request) :
    Occurrence.beats id ⟨p, .serve request false, q⟩ = [] := by
  cases request <;> rfl

theorem beats_of_target?_ne {request : Request} (htarget : request.target? p ≠ some id)
    (granted : Bool) : Occurrence.beats id ⟨p, .serve request granted, q⟩ = [] := by
  cases granted with
  | false => exact beats_of_refused id p q request
  | true =>
    cases request with
    | launch script start =>
      have hne : id ≠ p.nextId := fun heq => htarget (congrArg some heq.symm)
      simp [Occurrence.beats, Occurrence.happenings, hne]
    | pause i | resume i | seek i line | cancel i =>
      have hne : i ≠ id := fun heq => htarget (congrArg some heq)
      simp [Occurrence.beats, Occurrence.happenings, hne]
    | _ => rfl

/-! ## Requests that are about the session -/

theorem Shows.ne_nextId (h : p.Shows id solo) : id ≠ p.nextId := by
  intro heq
  have hsession := h.session
  rw [heq, session?, nextId] at hsession
  simp at hsession

theorem Shows.sees_change (h : p.Shows id solo) {request : Request}
    {change : Session → Option Session} (happening : Happening)
    (hserve : p.serve request = p.change id change)
    (hbeats : ∀ q, Occurrence.beats id ⟨p, .serve request true, q⟩ =
      [⟨p.clock, p.policy.ignoreLooping, happening⟩])
    (hasked : ∀ t, solo.active = true → change solo.session = some t →
      solo.Asked happening { solo with session := t }) :
    p.Sees punctual id solo (.serve request (p.serve request).2) (p.serve request).1 := by
  rw [hserve, Playback.change, changeFound, h.active, h.session]
  cases hactive : solo.active with
  | false => exact h.beside (beats_of_refused id p p request)
  | true =>
    cases hchange : change solo.session with
    | none =>
      simp only [if_true, Option.bind_some, hchange]
      exact h.beside (beats_of_refused id p p request)
    | some t =>
      simp only [if_true, Option.bind_some, hchange]
      refine ⟨_, .asked (hasked t hactive hchange) ?_, h.setSession t⟩
      rw [hbeats, h.clock]

theorem Shows.sees_cancel (h : p.Shows id solo) :
    p.Sees punctual id solo (.serve (.cancel id) (p.cancel id).2) (p.cancel id).1 := by
  rw [cancel_eq, h.active]
  cases hactive : solo.active with
  | false => exact h.beside rfl
  | true =>
    have hbeats (q : Playback) : Occurrence.beats id ⟨p, .serve (.cancel id) true, q⟩ =
        [⟨solo.clock, p.policy.ignoreLooping, .cancelled⟩] := by
      simp [Occurrence.beats, Occurrence.happenings, h.clock]
    have hasked : solo.Asked .cancelled
        { solo with session := solo.session.cancel?.getD solo.session, active := false } :=
      .cancelled hactive
    rw [if_pos rfl, h.session, Option.bind_some]
    cases hcancel : solo.session.cancel? with
    | none =>
      rw [hcancel] at hasked
      exact ⟨_, .asked hasked (hbeats _), h.deactivate⟩
    | some t =>
      rw [hcancel] at hasked
      exact ⟨_, .asked hasked (hbeats _), h.deactivate.setSession t⟩

theorem Shows.sees_serve (h : p.Shows id solo) (request : Request) :
    p.Sees punctual id solo (.serve request (p.serve request).2) (p.serve request).1 := by
  by_cases htarget : request.target? p = some id
  · cases request with
    | launch script start => exact absurd (Option.some.inj htarget).symm h.ne_nextId
    | pause i =>
      cases htarget
      refine h.sees_change .paused rfl (fun q => ?_) fun t hactive hpause => ?_
      · simp [Occurrence.beats, Occurrence.happenings]
      · rw [h.now] at hpause
        exact .paused hactive hpause
    | resume i =>
      cases htarget
      refine h.sees_change .resumed rfl (fun q => ?_) fun t hactive hresume => ?_
      · simp [Occurrence.beats, Occurrence.happenings]
      · rw [h.now] at hresume
        exact .resumed hactive hresume
    | seek i line =>
      cases htarget
      refine h.sees_change (.sought line) rfl (fun q => ?_) fun t hactive hseek =>
        .sought hactive hseek
      simp [Occurrence.beats, Occurrence.happenings]
    | cancel i =>
      cases htarget
      exact h.sees_cancel
    | _ => cases htarget
  · exact ((alike_serve htarget).shows h).beside (beats_of_target?_ne htarget _)

theorem Lacks.launched (h : p.Lacks p.nextId) (script : Script) (start : Start)
    (lines : List String) :
    (p.launched script start lines).Shows p.nextId
      ⟨p.clock, start.prepare script.id lines, true, .ready { lastCheck := p.clock * 1000000 }⟩ := by
  have hsession := session?_append p p.nextId (start.prepare script.id lines)
  rw [if_pos rfl] at hsession
  have hplaces := h.places
  unfold Playback.places at hplaces
  rw [List.append_eq_nil_iff, List.map_eq_nil_iff] at hplaces
  refine ⟨rfl, hsession, ?_, ?_⟩
  · simp [Playback.launched, isActive]
  · simp only [Playback.launched, Playback.places, List.filterMap_append, hplaces]
    simp [Place.toList, now]

theorem Lacks.refused (h : p.Lacks id) {request : Request} (htarget : request.target? p = some id)
    (hlaunch : ∀ script start, request ≠ .launch script start) :
    p.serve request = (p, false) := by
  have hchange (change : Session → Option Session) : p.change id change = (p, false) := by
    unfold Playback.change changeFound
    rw [h.active]
    rfl
  cases request with
  | launch script start => exact absurd rfl (hlaunch script start)
  | pause i | resume i | seek i line =>
    cases htarget
    exact hchange _
  | cancel i =>
    cases htarget
    rw [Playback.serve, cancel_eq, h.active]
    rfl
  | _ => cases htarget

theorem Lacks.serve (h : p.Lacks id) (request : Request) :
    (∃ start script lines, Occurrence.beats id ⟨p, .serve request (p.serve request).2,
          (p.serve request).1⟩ = [⟨p.clock, p.policy.ignoreLooping, .launched start⟩] ∧
        (p.serve request).1.Shows id
          ⟨p.clock, start.prepare script lines, true, .ready { lastCheck := p.clock * 1000000 }⟩) ∨
      Occurrence.beats id ⟨p, .serve request (p.serve request).2, (p.serve request).1⟩ = [] ∧
        (p.serve request).1.Lacks id := by
  by_cases htarget : request.target? p = some id
  · by_cases hlaunch : ∃ script start, request = .launch script start
    · obtain ⟨script, start, rfl⟩ := hlaunch
      cases htarget
      rcases launch_cases p script start with hrefused | ⟨lines, hlaunched⟩
      · rw [hrefused]
        exact .inr ⟨rfl, h⟩
      · rw [hlaunched]
        refine .inl ⟨start, script.id, lines, ?_, h.launched script start lines⟩
        simp [Occurrence.beats, Occurrence.happenings]
    · rw [h.refused htarget fun script start heq => hlaunch ⟨script, start, heq⟩]
      exact .inr ⟨beats_of_refused id p p request, h⟩
  · exact .inr ⟨beats_of_target?_ne htarget _, (alike_serve htarget).lacks h⟩

/-! ## Tasks -/

theorem Shows.resumeLater (h : p.Shows id solo) (hgone : solo.place = .gone) (next : Next) :
    (p.resumeLater id next).Shows id
      { solo with active := solo.active && next ≠ .ended, place := next.place solo.clock } := by
  have hempty : p.places id = [] := by
    rw [h.places, hgone]
    rfl
  have hclock : p.clock = solo.clock := h.clock
  unfold Playback.places at hempty
  rw [List.append_eq_nil_iff, List.map_eq_nil_iff] at hempty
  obtain ⟨hready, hsleepers⟩ := hempty
  have hgoesOn (next : Next) (hnext : next ≠ .ended) :
      p.isActive id = (solo.active && next ≠ .ended) := by
    rw [h.active]
    simp [hnext]
  cases next with
  | again head =>
    refine ⟨h.clock, h.session, hgoesOn _ (by simp), ?_⟩
    simp only [Playback.resumeLater, Playback.places, List.filterMap_cons, Task.head?_play_self,
      hready, hsleepers]
    rfl
  | yield head =>
    refine ⟨h.clock, h.session, hgoesOn _ (by simp), ?_⟩
    simp only [Playback.resumeLater, enqueue, Playback.places, List.filterMap_append,
      List.filterMap_cons, Task.head?_play_self, hready, hsleepers]
    rfl
  | sleep time head =>
    refine ⟨h.clock, h.session, hgoesOn _ (by simp), ?_⟩
    simp only [Playback.resumeLater, Playback.sleep, Playback.places, List.filterMap_append,
      List.filterMap_cons, Task.head?_play_self, hready, hsleepers, hclock]
    rfl
  | ended =>
    have hinactive := h.deactivate
    have hretired : (p.deactivate id).Shows id
        { solo with active := solo.active && Next.ended ≠ .ended, place := .gone } := by
      refine ⟨hinactive.clock, hinactive.session, ?_, h.places.trans (congrArg _ hgone)⟩
      rw [hinactive.active]
      simp
    exact ((beside_retire p id).alike id).shows hretired

theorem alike_resumeLater (hne : i ≠ id) (p : Playback) (next : Next) :
    Alike id p (p.resumeLater i next) := by
  cases next with
  | again head =>
    refine ⟨rfl, rfl, rfl, ?_⟩
    simp [Playback.resumeLater, Playback.places, Task.head?_play_of_ne head hne]
  | yield head =>
    refine ⟨rfl, rfl, rfl, ?_⟩
    simp [Playback.resumeLater, enqueue, Playback.places, Task.head?_play_of_ne head hne]
  | sleep time head =>
    refine ⟨rfl, rfl, rfl, ?_⟩
    simp [Playback.resumeLater, Playback.sleep, Playback.places, Task.head?_play_of_ne head hne]
  | ended =>
    exact (alike_deactivate hne p).trans ((beside_retire p i).alike id)

theorem alike_runTask (p : Playback) (htask : task.head? id = none) :
    Alike id p (p.runTask task) := by
  cases task with
  | play i head =>
    have hne := Task.ne_of_head?_eq_none htask
    simp only [runTask, runPlayhead]
    split
    · exact .refl id p
    · next s _ =>
      have hset := alike_setSession hne p (head.step p.surroundings s).session
      have hperformed := beside_foldl_perform i (head.step p.surroundings s).effects
        (p.setSession i (head.step p.surroundings s).session)
      exact (hset.trans (hperformed.alike id)).trans (alike_resumeLater hne _ _)
  | _ => exact (beside_runTask p fun _ => rfl).alike id

theorem beats_of_head?_eq_none (htask : task.head? id = none) :
    Occurrence.beats id ⟨p, .run task, q⟩ = [] := by
  cases task with
  | play i head =>
    have hne := Task.ne_of_head?_eq_none htask
    simp [Occurrence.beats, Occurrence.happenings, hne]
  | _ => rfl

section Running

variable {before after : List Task}

theorem alike_take (hready : p.ready = before ++ task :: after) (htask : task.head? id = none) :
    Alike id p { p with ready := before ++ after } :=
  ⟨rfl, rfl, rfl, places_take_of_head?_eq_none hready htask⟩

theorem Shows.place_of_ready (h : p.Shows id solo) {head : Playhead}
    (hready : p.ready = before ++ .play id head :: after) :
    solo.place = .ready head ∧ { p with ready := before ++ after }.places id = [] := by
  have hplaces := h.places
  cases hplace : solo.place with
  | gone =>
    rw [hplace, places_of_ready hready, Task.head?_play_self] at hplaces
    simp [Place.toList] at hplaces
  | ready head' =>
    rw [hplace] at hplaces
    exact places_take_self hready hplaces
  | asleep wake head' =>
    rw [hplace] at hplaces
    exact places_take_self hready hplaces

theorem Shows.run_play (h : p.Shows id solo) {head : Playhead}
    (hready : p.ready = before ++ .play id head :: after) :
    ({ p with ready := before ++ after }.runTask (.play id head)).Shows id
      (solo.after (head.step p.surroundings solo.session)) := by
  obtain ⟨-, hnone⟩ := h.place_of_ready hready
  have hgone : { p with ready := before ++ after }.Shows id { solo with place := .gone } :=
    ⟨h.clock, h.session, h.active, hnone⟩
  have hset := hgone.setSession (head.step p.surroundings solo.session).session
  have hperformed := ((beside_foldl_perform id (head.step p.surroundings solo.session).effects
    _).alike id).shows hset
  have hresumed := hperformed.resumeLater rfl (head.step p.surroundings solo.session).next
  simp only [runTask, runPlayhead, hgone.session]
  exact hresumed

theorem Shows.sees_play (h : p.Shows id solo) {head : Playhead}
    (hready : p.ready = before ++ .play id head :: after) :
    p.Sees punctual id solo (.run (.play id head))
      ({ p with ready := before ++ after }.runTask (.play id head)) := by
  obtain ⟨hplace, -⟩ := h.place_of_ready hready
  have hstep : Step punctual p (.run (.play id head))
      ({ p with ready := before ++ after }.runTask (.play id head)) := .run hready
  have hevents := hstep.journal
  rw [actEvents, taskEvents] at hevents
  simp only [h.session] at hevents
  refine ⟨_, .played rfl hplace ?_, h.run_play hready⟩
  simp only [Occurrence.beats, Occurrence.happenings, if_true]
  rw [events_of_written hevents, List.map_map, h.clock]
  rfl

theorem Shows.sees_run (h : p.Shows id solo) (hready : p.ready = before ++ task :: after) :
    p.Sees punctual id solo (.run task) ({ p with ready := before ++ after }.runTask task) := by
  cases htask : task.head? id with
  | none =>
    have hshows := ((alike_take hready htask).trans (alike_runTask _ htask)).shows h
    exact hshows.beside (beats_of_head?_eq_none htask)
  | some head =>
    rw [Task.eq_play_of_head?_eq_some htask] at hready ⊢
    exact h.sees_play hready

theorem Lacks.head?_eq_none (h : p.Lacks id) (hready : p.ready = before ++ task :: after) :
    task.head? id = none := by
  have hplaces := h.places
  rw [places_of_ready hready] at hplaces
  cases htask : task.head? id with
  | none => rfl
  | some head => simp [htask] at hplaces

theorem Lacks.run (h : p.Lacks id) (hready : p.ready = before ++ task :: after) :
    Occurrence.beats id ⟨p, .run task, { p with ready := before ++ after }.runTask task⟩ = [] ∧
      ({ p with ready := before ++ after }.runTask task).Lacks id := by
  have htask := h.head?_eq_none hready
  exact ⟨beats_of_head?_eq_none htask,
    ((alike_take hready htask).trans (alike_runTask _ htask)).lacks h⟩

end Running

/-! ## Time -/

theorem places_sleepers_perm (id : SessionId) (time : Nat) (sleepers : List Sleeper) :
    ((((sleepers.filter (·.wake ≤ time)).map Sleeper.task).filterMap (Task.head? id)).map
        Place.ready ++
      (sleepers.filter (time < ·.wake)).filterMap fun sleeper =>
        (sleeper.task.head? id).map (Place.asleep sleeper.wake)).Perm
      ((sleepers.filterMap fun sleeper =>
        (sleeper.task.head? id).map (Place.asleep sleeper.wake)).map (Place.wakeAt time)) := by
  induction sleepers with
  | nil => exact .refl _
  | cons sleeper sleepers ih =>
    cases htask : sleeper.task.head? id with
    | none =>
      by_cases hdue : sleeper.wake ≤ time
      · simpa [htask, hdue, Nat.not_lt.2 hdue] using ih
      · simpa [htask, hdue, Nat.not_le.1 hdue] using ih
    | some head =>
      by_cases hdue : sleeper.wake ≤ time
      · simpa [htask, hdue, Nat.not_lt.2 hdue, Place.wakeAt] using ih
      · have hlater : time < sleeper.wake := Nat.not_le.1 hdue
        simp only [htask, hdue, hlater, Place.wakeAt, List.filter_cons, decide_true, decide_false,
          if_true, Bool.false_eq_true, if_false, List.filterMap_cons, Option.map_some,
          List.map_cons]
        exact List.perm_middle.trans (ih.cons _)

theorem places_wakeAt_perm (p : Playback) (id : SessionId) (time : Nat) :
    ((p.wakeAt time).places id).Perm ((p.places id).map (Place.wakeAt time)) := by
  have hready : (Place.wakeAt time ∘ Place.ready) = Place.ready := rfl
  simp only [Playback.places, wakeAt, List.filterMap_append, List.map_append, List.append_assoc,
    List.map_map, hready]
  exact (places_sleepers_perm id time p.sleepers).append_left _

theorem Shows.wakeAt (h : p.Shows id solo) (time : Nat) :
    (p.wakeAt time).Shows id
      { solo with clock := max solo.clock time, place := solo.place.wakeAt time } := by
  refine ⟨?_, h.session, h.active, ?_⟩
  · show max p.clock time = max solo.clock time
    rw [h.clock]
  · have hperm := places_wakeAt_perm p id time
    rw [h.places] at hperm
    cases hplace : solo.place with
    | ready head =>
      rw [hplace] at hperm
      exact hperm.eq_singleton
    | asleep wake head =>
      rw [hplace] at hperm
      have hone := hperm.eq_singleton
      rw [hone]
      by_cases hdue : wake ≤ time
      · simp [Place.wakeAt, hdue, Place.toList]
      · simp [Place.wakeAt, hdue, Place.toList]
    | gone =>
      rw [hplace] at hperm
      exact hperm.eq_nil

theorem Shows.onTime (h : p.Shows id solo) {time : Nat} (htime : p.OnTime time) :
    solo.place.OnTime time := by
  obtain ⟨hready, hsleepers⟩ := htime
  have hplaces := h.places
  rw [Playback.places, hready] at hplaces
  cases hplace : solo.place with
  | ready head =>
    have hmem : Place.ready head ∈ solo.place.toList := by simp [hplace, Place.toList]
    rw [← hplaces] at hmem
    simp at hmem
  | asleep wake head =>
    have hmem : Place.asleep wake head ∈ solo.place.toList := by simp [hplace, Place.toList]
    rw [← hplaces] at hmem
    simp only [List.filterMap_nil, List.map_nil, List.nil_append, List.mem_filterMap,
      Option.map_eq_some_iff, Place.asleep.injEq] at hmem
    obtain ⟨sleeper, hsleeper, head', -, hwake, -⟩ := hmem
    rw [← hwake]
    exact hsleepers sleeper hsleeper
  | gone => trivial

/-! ## Steps and runs -/

theorem settings_runTask (p : Playback) (task : Task) : (p.runTask task).settings = p.settings := by
  cases task with
  | play i head =>
    have hresume (q : Playback) (next : Next) :
        (q.resumeLater i next).settings = q.settings := by
      cases next with
      | ended => exact (beside_retire q i).settings
      | _ => rfl
    simp only [runTask, runPlayhead]
    split
    · rfl
    · rw [hresume, (beside_foldl_perform i _ _).settings, setSession_eq]
  | _ => exact (beside_runTask p fun _ => rfl).settings

theorem settings_serve (p : Playback) (request : Request) :
    (p.serve request).1.settings = p.settings := by
  have hset (q : Playback) (i : SessionId) (t : Session) :
      (q.setSession i t).settings = q.settings := by
    rw [setSession_eq]
  have hchange (i : SessionId) (change : Session → Option Session) :
      (p.change i change).1.settings = p.settings := by
    unfold Playback.change changeFound
    split
    · split
      · rfl
      · exact hset p i _
    · rfl
  cases request with
  | launch script start =>
    rcases launch_cases p script start with hrefused | ⟨lines, hlaunched⟩
    · rw [hrefused]
    · rw [hlaunched]
      rfl
  | pause i | resume i | seek i line => exact hchange i _
  | cancel i =>
    rw [serve, cancel_eq]
    split
    · split
      · rfl
      · exact hset _ i _
    · rfl
  | _ => rfl

theorem Step.settings_eq (hstep : Step punctual p act q) : q.settings = p.settings := by
  cases hstep with
  | serve request => exact settings_serve p request
  | run hready => exact settings_runTask _ _
  | pass => rfl

theorem Run.settings_eq (run : Run punctual settings history p) : p.settings = settings := by
  induction run with
  | start => rfl
  | step run hstep ih => exact hstep.settings_eq.trans ih

theorem Shows.sees (h : p.Shows id solo) (hstep : Step punctual p act q) :
    p.Sees punctual id solo act q := by
  cases hstep with
  | serve request => exact h.sees_serve request
  | run hready => exact h.sees_run hready
  | @pass time htime =>
    exact ⟨_, .passed rfl fun hpunctual => h.onTime (htime hpunctual), h.wakeAt time⟩

theorem Shows.step (h : p.Shows id solo) (hsettings : p.settings = settings) {solo' : Solo}
    (hseen : Occurrence.Seen punctual id ⟨p, act, q⟩ solo solo') :
    Solo.Step punctual settings id solo (Occurrence.beats id ⟨p, act, q⟩) solo' := by
  cases hseen with
  | beside hbeats =>
    rw [hbeats]
    exact .idle
  | asked hasked hbeats =>
    rw [hbeats]
    exact hasked.step _
  | played hact hplace hbeats =>
    have hnow : p.surroundings.now = solo.now := h.now
    rw [hbeats]
    exact .played hplace hnow hsettings
  | @passed time hact htime =>
    rw [beats_of_pass hact]
    exact .passed htime

theorem Shows.follows (h : p.Shows id solo) (hsettings : p.settings = settings)
    (hstep : Step punctual p act q) : p.Follows punctual settings id solo act q := by
  obtain ⟨solo', hseen, hshows⟩ := h.sees hstep
  exact ⟨solo', h.step hsettings hseen, hshows⟩

theorem Lacks.wakeAt (h : p.Lacks id) (time : Nat) : (p.wakeAt time).Lacks id := by
  refine ⟨h.session, h.active, ?_⟩
  have hperm := places_wakeAt_perm p id time
  rw [h.places] at hperm
  exact hperm.eq_nil

theorem lacks_start (settings : Settings) (id : SessionId) : (start settings).Lacks id := by
  refine ⟨?_, rfl, rfl⟩
  unfold session?
  cases id.number <;> rfl

theorem Lacks.steps (h : p.Lacks id) (hstep : Step punctual p act q) :
    (Occurrence.beats id ⟨p, act, q⟩ = [] ∧ q.Lacks id) ∨
      ∃ start script lines,
        Occurrence.beats id ⟨p, act, q⟩ = [⟨p.clock, p.policy.ignoreLooping, .launched start⟩] ∧
          q.Shows id ⟨p.clock, start.prepare script lines, true,
            .ready { lastCheck := p.clock * 1000000 }⟩ := by
  cases hstep with
  | serve request => exact (h.serve request).symm
  | run hready => exact .inl (h.run hready)
  | @pass time => exact .inl ⟨rfl, h.wakeAt time⟩

/-- A session of a run makes a run by itself, unless it was never launched. -/
theorem Run.apart (run : Run punctual settings history p) (id : SessionId) :
    (p.Lacks id ∧ story id history = []) ∨
      ∃ solo, p.Shows id solo ∧ Solo.Run punctual settings id (story id history) solo := by
  -- A number that was not given to a session yet is free until it is given away, and from then on
  -- the session follows every step.
  induction run with
  | start => exact .inl ⟨lacks_start settings id, rfl⟩
  | @step history p q act run hstep ih =>
    rw [story_cons]
    rcases ih with ⟨hlacks, hstory⟩ | ⟨solo, hshows, hrun⟩
    · rw [hstory, List.append_nil]
      rcases hlacks.steps hstep with ⟨hbeats, hlacks'⟩ | ⟨start, script, lines, hbeats, hshows⟩
      · rw [hbeats]
        exact .inl ⟨hlacks', rfl⟩
      · rw [hbeats]
        exact .inr ⟨_, hshows, .launched p.clock p.policy.ignoreLooping start script lines⟩
    · obtain ⟨solo', hstep', hshows'⟩ := hshows.follows run.settings_eq hstep
      exact .inr ⟨solo', hshows', hrun.step hstep'⟩

theorem Run.apart_of_session? (run : Run punctual settings history p)
    (hs : p.session? id = some s) :
    ∃ solo, p.Shows id solo ∧ solo.session = s ∧
      Solo.Run punctual settings id (story id history) solo := by
  rcases run.apart id with ⟨hlacks, -⟩ | ⟨solo, hshows, hrun⟩
  · rw [hlacks.session] at hs
    cases hs
  · have hsession := hshows.session
    rw [hs] at hsession
    exact ⟨solo, hshows, (Option.some.inj hsession).symm, hrun⟩

/-- A session that a playhead plays was launched. -/
theorem Run.apart_of_play (run : Run punctual settings history p) {head : Playhead}
    (hstep : Step punctual p (.run (.play id head)) q) :
    ∃ solo, p.Shows id solo ∧ solo.place = .ready head ∧
      Solo.Run punctual settings id (story id history) solo := by
  obtain ⟨before, after, hready, -⟩ := hstep.eq_of_run
  rcases run.apart id with ⟨hlacks, -⟩ | ⟨solo, hshows, hrun⟩
  · have hnone := hlacks.head?_eq_none hready
    rw [Task.head?_play_self] at hnone
    cases hnone
  · exact ⟨solo, hshows, (hshows.place_of_ready hready).1, hrun⟩

end Choreo.Playback
