import Choreo.Proofs.Playback.Alone

/-!
# What is asked of one of the sessions

A request concerns a session if it is about the session, or if it changes what every session looks at.
It can be asked as well where nothing but what concerns the session is left, and all other requests
leave that as it is.
-/

namespace Choreo.Playback

variable {p q : Playback} {a i : SessionId} {s t : Session} {request : Request}

def Request.as (id : SessionId) : Request → Request
  | .pause _ => .pause id
  | .resume _ => .resume id
  | .seek _ line => .seek id line
  | .cancel _ => .cancel id
  | .hold _ => .hold id
  | .releaseHold _ => .releaseHold id
  | request => request

/-- Whether a request launches the session, is about it once it was launched, or changes what every
session looks at. -/
def Request.concerns (a : SessionId) (p : Playback) : Request → Bool
  | .launch script start => p.nextId = a ∧ (p.serve (.launch script start)).2
  | .pause i | .resume i | .seek i _ | .cancel i => i = a ∧ (p.session? a).isSome
  | .hold i | .releaseHold i => i = a
  | .allow _ | .setRate _ | .setIgnoreLooping _ | .setIgnoreCountdown _ => true
  | .arm _ _ | .disarmAll => false

/-- The request, about the first number, if it concerns a session. -/
def Request.own? (a : SessionId) (p : Playback) (request : Request) : Option Request :=
  if request.concerns a p then some (request.as ⟨1⟩) else none

/-! ## The session is changed -/

theorem alone_setSession_of_ne (hne : a ≠ i) (p : Playback) (t : Session) :
    (p.setSession i t).alone a = p.alone a := by
  have hsession := session?_setSession_of_ne (p := p) hne t
  rw [setSession_eq] at hsession ⊢
  exact alone_eq_alone rfl rfl rfl rfl hsession rfl rfl rfl rfl rfl

theorem alone_setSession_self (hs : p.session? a = some s) (t : Session) :
    (p.setSession a t).alone a = ((p.alone a).setSession ⟨1⟩ t).alone ⟨1⟩ := by
  have hself := session?_setSession_self hs t
  have halone := session?_setSession_self ((session?_alone a p).trans hs) t
  have hsession := halone.trans hself.symm
  rw [setSession_eq p, setSession_eq (p.alone a)] at hsession ⊢
  symm
  exact alone_eq_alone rfl rfl rfl rfl hsession (isActive_alone a p) (contains_held_alone a p)
    (filterMap_own Task.own?_own? a _) (filterMap_own Sleeper.own?_own? a _)
    (filterMap_own Entry.own?_own? a _)

theorem alone_change_of_ne (hne : a ≠ i) (p : Playback) (act : Session → Option Session) :
    (p.change i act).1.alone a = p.alone a := by
  unfold change changeFound
  split
  · split
    · rfl
    · exact alone_setSession_of_ne hne p _
  · rfl

theorem alone_change_self (a : SessionId) (p : Playback) (act : Session → Option Session) :
    (p.change a act).1.alone a = ((p.alone a).change ⟨1⟩ act).1.alone ⟨1⟩ := by
  unfold change changeFound
  rw [isActive_alone, session?_alone]
  split
  · cases hs : p.session? a with
    | none => exact (alone_alone a p).symm
    | some s =>
      rw [Option.bind_some]
      cases act s with
      | none => exact (alone_alone a p).symm
      | some t => exact alone_setSession_self hs t
  · exact (alone_alone a p).symm

theorem change_of_missing (hs : p.session? a = none) (act : Session → Option Session) :
    (p.change a act).1 = p := by
  unfold change changeFound
  rw [hs]
  split <;> rfl

/-! ## The session is cancelled -/

theorem alone_deactivate_of_ne (hne : a ≠ i) (p : Playback) :
    (p.deactivate i).alone a = p.alone a := by
  refine alone_eq_alone rfl rfl rfl rfl rfl ?_ rfl rfl rfl rfl
  simp [deactivate, isActive, hne]

theorem alone_deactivate_self (a : SessionId) (p : Playback) :
    (p.deactivate a).alone a = ((p.alone a).deactivate ⟨1⟩).alone ⟨1⟩ := by
  symm
  refine alone_eq_alone rfl rfl rfl rfl (session?_alone a p) ?_ (contains_held_alone a p)
    (filterMap_own Task.own?_own? a _) (filterMap_own Sleeper.own?_own? a _)
    (filterMap_own Entry.own?_own? a _)
  simp [deactivate, isActive]

theorem alone_cancel_of_ne (hne : a ≠ i) (p : Playback) : (p.cancel i).1.alone a = p.alone a := by
  rw [cancel_eq]
  split
  · split
    · exact alone_deactivate_of_ne hne p
    · exact (alone_setSession_of_ne hne _ _).trans (alone_deactivate_of_ne hne p)
  · rfl

theorem alone_cancel_self (a : SessionId) (p : Playback) :
    (p.cancel a).1.alone a = ((p.alone a).cancel ⟨1⟩).1.alone ⟨1⟩ := by
  rw [cancel_eq, cancel_eq, isActive_alone, session?_alone]
  split
  · cases hs : (p.session? a).bind Session.cancel? with
    | none => exact alone_deactivate_self a p
    | some t =>
      obtain ⟨s, hsession, -⟩ := Option.bind_eq_some_iff.1 hs
      have hself : (p.deactivate a).session? a = some s := hsession
      have halone : ((p.alone a).deactivate ⟨1⟩).session? ⟨1⟩ = some s :=
        (session?_alone a p).trans hsession
      -- Both are changed in the same way after they were deactivated in the same way.
      show ((p.deactivate a).setSession a t).alone a =
        (((p.alone a).deactivate ⟨1⟩).setSession ⟨1⟩ t).alone ⟨1⟩
      rw [alone_setSession_self hself, alone_deactivate_self, ← alone_setSession_self halone]
  · exact (alone_alone a p).symm

/-! ## The session is launched -/

theorem session?_nextId (p : Playback) : p.session? p.nextId = none := by
  simp [session?, nextId]

theorem alone_launched_of_ne (hne : a ≠ p.nextId) (script : Script) (start : Start)
    (lines : List String) : (p.launched script start lines).alone a = p.alone a := by
  have hsession := session?_append p a (start.prepare script.id lines)
  rw [if_neg hne] at hsession
  refine alone_eq_alone rfl rfl rfl rfl hsession ?_ rfl ?_ rfl rfl
  · simp [launched, isActive, hne]
  · have hplay : Task.own? a (.play p.nextId { lastCheck := p.now }) = none :=
      Task.own?_of_ne fun heq => hne (Option.some.inj heq).symm
    simp [launched, hplay]

theorem alone_launched_self (p : Playback) (script : Script) (start : Start) (lines : List String) :
    (p.launched script start lines).alone p.nextId =
      ((p.alone p.nextId).launched script start lines).alone ⟨1⟩ := by
  have hself := session?_append p p.nextId (start.prepare script.id lines)
  have hnext : (p.alone p.nextId).nextId = ⟨1⟩ := by
    simp [nextId, alone, session?]
  have halone := session?_append (p.alone p.nextId) ⟨1⟩ (start.prepare script.id lines)
  rw [if_pos rfl] at hself
  rw [hnext, if_pos rfl] at halone
  symm
  refine alone_eq_alone rfl rfl rfl rfl (halone.trans hself.symm) ?_ (contains_held_alone _ p) ?_
    (filterMap_own Sleeper.own?_own? _ _) (filterMap_own Entry.own?_own? _ _)
  · simp [launched, isActive, hnext]
  · have hplay (id : SessionId) : Task.own? id (.play id { lastCheck := p.now }) =
        some (.play ⟨1⟩ { lastCheck := p.now }) := Task.own?_of_eq rfl
    have hnow : (p.alone p.nextId).now = p.now := rfl
    simp only [launched, hnext, hnow, List.filterMap_append, List.filterMap_cons, hplay]
    exact congrArg (· ++ _) (filterMap_own Task.own?_own? p.nextId p.ready)

theorem alone_launch_self {script : Script} {start : Start}
    (hgranted : (p.serve (.launch script start)).2 = true) :
    (p.serve (.launch script start)).1.alone p.nextId =
      ((p.alone p.nextId).serve (.launch script start)).1.alone ⟨1⟩ := by
  have hallowed : (p.alone p.nextId).allowed = p.allowed := rfl
  simp only [serve, launch, hallowed] at hgranted ⊢
  split at hgranted
  · next hyes =>
    rw [if_pos hyes, if_pos hyes]
    split at hgranted
    · cases hgranted
    · next lines _ => exact alone_launched_self p script start lines
  · cases hgranted

/-! ## Every request -/

theorem alone_serve_of_concerns (hconcerns : request.concerns a p = true) :
    (p.serve request).1.alone a = ((p.alone a).serve (request.as ⟨1⟩)).1.alone ⟨1⟩ := by
  cases request with
  | launch script start =>
    obtain ⟨rfl, hgranted⟩ := of_decide_eq_true hconcerns
    exact alone_launch_self hgranted
  | pause i | resume i | seek i line =>
    obtain ⟨rfl, -⟩ := of_decide_eq_true hconcerns
    exact alone_change_self _ p _
  | cancel i =>
    obtain ⟨rfl, -⟩ := of_decide_eq_true hconcerns
    exact alone_cancel_self i p
  | hold i =>
    obtain rfl := of_decide_eq_true hconcerns
    symm
    refine alone_eq_alone rfl rfl rfl rfl (session?_alone i p) (isActive_alone i p) ?_
      (filterMap_own Task.own?_own? i _) (filterMap_own Sleeper.own?_own? i _)
      (filterMap_own Entry.own?_own? i _)
    simp [Request.as, serve, hold]
  | releaseHold i =>
    obtain rfl := of_decide_eq_true hconcerns
    symm
    refine alone_eq_alone rfl rfl rfl rfl (session?_alone i p) (isActive_alone i p) ?_
      (filterMap_own Task.own?_own? i _) (filterMap_own Sleeper.own?_own? i _)
      (filterMap_own Entry.own?_own? i _)
    simp [Request.as, serve, releaseHold]
  | allow | setRate | setIgnoreLooping | setIgnoreCountdown =>
    symm
    exact alone_eq_alone rfl rfl rfl rfl (session?_alone a p) (isActive_alone a p)
      (contains_held_alone a p) (filterMap_own Task.own?_own? a _)
      (filterMap_own Sleeper.own?_own? a _) (filterMap_own Entry.own?_own? a _)
  | arm | disarmAll => cases hconcerns

/-- A session that was not launched yet is not active, so nothing happens to it before. -/
theorem alone_serve_of_not_concerns (hfree : p.session? a = none → p.isActive a = false)
    (hconcerns : request.concerns a p = false) : (p.serve request).1.alone a = p.alone a := by
  cases request with
  | launch script start =>
    rcases launch_cases p script start with hrefused | ⟨lines, hlaunched⟩
    · rw [hrefused]
    · have hne : a ≠ p.nextId := by
        rintro rfl
        simp [Request.concerns, hlaunched] at hconcerns
      rw [hlaunched]
      exact alone_launched_of_ne hne script start lines
  | pause i | resume i | seek i line =>
    by_cases hi : a = i
    · subst hi
      have hmissing : p.session? a = none := by simpa [Request.concerns] using hconcerns
      exact congrArg (Playback.alone a) (change_of_missing hmissing _)
    · exact alone_change_of_ne hi p _
  | cancel i =>
    by_cases hi : a = i
    · subst hi
      have hmissing : p.session? a = none := by simpa [Request.concerns] using hconcerns
      rw [serve, cancel_eq, hfree hmissing]
      rfl
    · exact alone_cancel_of_ne hi p
  | hold i =>
    have hi : i ≠ a := of_decide_eq_false hconcerns
    refine alone_eq_alone rfl rfl rfl rfl rfl rfl ?_ rfl rfl rfl
    simp [serve, hold, hi.symm]
  | releaseHold i =>
    have hi : i ≠ a := of_decide_eq_false hconcerns
    refine alone_eq_alone rfl rfl rfl rfl rfl rfl ?_ rfl rfl rfl
    simp [serve, releaseHold, hi.symm]
  | arm i flag =>
    exact alone_eq_alone rfl (p.policy.unflagged_setFlag flag _) rfl rfl rfl rfl rfl rfl rfl rfl
  | disarmAll => exact alone_eq_alone rfl rfl rfl rfl rfl rfl rfl rfl rfl rfl
  | allow | setRate | setIgnoreLooping | setIgnoreCountdown => cases hconcerns

end Choreo.Playback
