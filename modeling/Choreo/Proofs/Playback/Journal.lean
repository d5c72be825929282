import Choreo.Proofs.Playback.Beside

/-!
# What is written into the journal

Each step adds to the journal, and takes nothing out of it. `Act.events` tells what a step adds from
the playback before it alone, so who sends what, and when nothing is sent, can be read off there.
-/

namespace Choreo

def Move.events (id : SessionId) (move : Move) : List Event :=
  move.effects.filterMap (Effect.event? id move.session)

theorem reach_of_mem_events {id i : SessionId} {move : Move} {milestone : Milestone}
    (hmem : .reached i milestone ∈ move.events id) : i = id ∧ .reach milestone ∈ move.effects := by
  obtain ⟨effect, heffect, hevent⟩ := List.mem_filterMap.1 hmem
  cases effect with
  | reach milestone' =>
    cases hevent
    exact ⟨rfl, heffect⟩
  | send command mode =>
    simp only [Effect.event?] at hevent
    split at hevent <;> cases hevent
  | _ => cases hevent

namespace Playback

variable {punctual : Prop} {settings : Settings} {history : List Occurrence}
variable {p q r : Playback} {id : SessionId} {s : Session} {task : Task} {act : Act}
variable {o : Occurrence}

def taskEvents (p : Playback) : Task → List Event
  | .play id head =>
    match p.session? id with
    | none => []
    | some s => (head.step p.surroundings s).events id
  | .pad id payload left =>
    match left, p.known? id with
    | _ + 1, some s => if s.status = .cancelled then [] else [.sent ⟨payload, .noQueue, some id⟩]
    | _, _ => []
  | .countdown id epoch command =>
    match p.isActive id, p.session? id with
    | true, some s =>
      if s.status = .playing ∧ s.epoch = epoch ∧ !p.policy.ignoreCountdown then
        [.sent ⟨command, .queue, some id⟩]
      else []
    | _, _ => []
  | .release ticket command =>
    if p.policy.honours ticket then [.sent ⟨command, .queue, none⟩] else []

def actEvents (p : Playback) : Act → List Event
  | .run task => p.taskEvents task
  | _ => []

theorem written_nil (p : Playback) : p.written [] = p.journal := rfl

theorem written_append (hclock : q.clock = p.clock) {first rest : List Event}
    (hq : q.journal = p.written first) : q.written rest = p.written (first ++ rest) := by
  rw [written, written, hq, hclock, written, List.map_append, List.reverse_append,
    List.append_assoc]

theorem journal_sendFrom (hs : p.session? id = some s) (hlive : s.status ≠ .cancelled)
    (command : String) (mode : DispatchMode) :
    (p.sendFrom id command mode).journal = p.written [.sent ⟨command, mode, some id⟩] := by
  simp only [sendFrom, hs, if_neg hlive]
  rfl

theorem journal_perform (hs : p.session? id = some s) (effect : Effect) :
    (perform id p effect).journal = p.written (effect.event? id s).toList := by
  cases effect with
  | send command mode =>
    by_cases hlive : s.status = .cancelled
    · simp [perform, sendFrom, hs, Effect.event?, hlive, written]
    · rw [perform, journal_sendFrom hs hlive]
      simp [Effect.event?, hlive]
  | arm flag => rfl
  | disarmAll => rfl
  | pad padding => rfl
  | countdown lead offset => simp [perform, hs, Playback.sleep, Effect.event?, written]
  | reach milestone => rfl

theorem journal_foldl_perform (hs : p.session? id = some s) (effects : List Effect) :
    (effects.foldl (perform id) p).journal =
      p.written (effects.filterMap (Effect.event? id s)) := by
  induction effects generalizing p with
  | nil => rfl
  | cons effect effects ih =>
    have hbeside := beside_perform id p effect
    have hs' : (perform id p effect).session? id = some s := by rw [hbeside.session?, hs]
    rw [List.foldl_cons, ih hs', written_append hbeside.clock (journal_perform hs effect),
      List.filterMap_cons]
    cases effect.event? id s <;> rfl

/-! ## The session that a playhead plays -/

theorem session?_setSession_self (hs : p.session? id = some s) (t : Session) :
    (p.setSession id t).session? id = some t := by
  unfold session? at hs
  unfold session? setSession
  cases hnumber : id.number with
  | zero => simp [hnumber] at hs
  | succ n =>
    simp only [hnumber] at hs
    obtain ⟨hlt, -⟩ := List.getElem?_eq_some_iff.1 hs
    simp [hlt]

theorem session?_setSession_of_ne {i : SessionId} (hne : i ≠ id) (t : Session) :
    (p.setSession id t).session? i = p.session? i := by
  unfold session? setSession
  have hnumber : i.number ≠ id.number := fun h => hne (by cases i; cases id; cases h; rfl)
  cases hid : id.number with
  | zero => rfl
  | succ n =>
    cases hi : i.number with
    | zero => rfl
    | succ m =>
      have hnm : n ≠ m := by omega
      simp [hnm]

theorem setSession_eq (p : Playback) (id : SessionId) (t : Session) :
    p.setSession id t = { p with sessions := (p.setSession id t).sessions } := by
  unfold setSession
  split <;> rfl

theorem journal_resumeLater (p : Playback) (id : SessionId) (next : Next) :
    (p.resumeLater id next).journal = p.journal := by
  have hplan (p : Playback) (flag : AutoFlag) (grace : Duration) (command : String) :
      (p.planRelease id flag grace command).journal = p.journal := by
    unfold planRelease
    split <;> rfl
  cases next with
  | again head => rfl
  | yield head => rfl
  | sleep time head => rfl
  | ended => simp only [resumeLater, retire, hplan]

theorem journal_runPlayhead (hs : p.session? id = some s) (head : Playhead) :
    (p.runPlayhead id head).journal =
      p.written ((head.step p.surroundings s).events id) := by
  simp only [runPlayhead, hs]
  rw [journal_resumeLater, journal_foldl_perform (session?_setSession_self hs _), setSession_eq]
  rfl

theorem session?_of_known? (hknown : p.known? id = some s) : p.session? id = some s := by
  unfold known? at hknown
  split at hknown
  · exact hknown
  · cases hknown

/-! ## Every step -/

theorem journal_runTask (p : Playback) (task : Task) :
    (p.runTask task).journal = p.written (p.taskEvents task) := by
  cases task with
  | play id head =>
    simp only [runTask, taskEvents]
    cases hs : p.session? id with
    | none => simp [runPlayhead, hs, written_nil]
    | some s => exact journal_runPlayhead hs head
  | pad id payload left =>
    simp only [runTask, runPad, taskEvents]
    cases left with
    | zero => rfl
    | succ left =>
      cases hknown : p.known? id with
      | none => rfl
      | some s =>
        have hs := session?_of_known? hknown
        simp only
        split
        · rfl
        · next hlive => exact journal_sendFrom hs hlive payload .noQueue
  | countdown id epoch command =>
    simp only [runTask, runCountdown, taskEvents]
    cases hactive : p.isActive id with
    | false => rfl
    | true =>
      cases hs : p.session? id with
      | none => rfl
      | some s =>
        simp only [if_true]
        split
        · next hplaying =>
          exact journal_sendFrom hs (by rw [hplaying.1]; decide) command .queue
        · rfl
  | release ticket command =>
    simp only [runTask, runRelease, taskEvents, Policy.release]
    split <;> rfl

theorem journal_change (p : Playback) (id : SessionId) (act : Session → Option Session) :
    (p.change id act).1.journal = p.journal := by
  unfold change changeFound
  split
  · split
    · rfl
    · rw [setSession_eq]
  · rfl

theorem journal_serve (p : Playback) (request : Request) :
    (p.serve request).1.journal = p.journal := by
  cases request with
  | launch script start =>
    simp only [serve, launch]
    split
    · split <;> rfl
    · rfl
  | pause id => exact journal_change p id _
  | resume id => exact journal_change p id _
  | seek id line => exact journal_change p id _
  | cancel id =>
    simp only [serve, cancel]
    split
    · split
      · rfl
      · rw [setSession_eq]
    · rfl
  | hold id => rfl
  | releaseHold id => rfl
  | allow allowed => rfl
  | setRate rate => rfl
  | setIgnoreLooping ignore => rfl
  | setIgnoreCountdown ignore => rfl
  | arm id flag => rfl
  | disarmAll => rfl

theorem Step.journal (hstep : Step punctual p act q) : q.journal = p.written (p.actEvents act) := by
  cases hstep with
  | serve request => exact journal_serve p request
  | @run before after task hready =>
    exact journal_runTask { p with ready := before ++ after } task
  | pass => rfl

theorem Step.events (hstep : Step punctual o.before o.act o.after) :
    o.events = o.before.actEvents o.act :=
  @events_of_written o.before o.after o.act _ hstep.journal

theorem Step.events_play {head : Playhead} (hstep : Step punctual p (.run (.play id head)) q)
    (hs : p.session? id = some s) :
    Occurrence.events ⟨p, .run (.play id head), q⟩ = (head.step p.surroundings s).events id := by
  rw [Step.events (o := ⟨p, .run (.play id head), q⟩) hstep, actEvents, taskEvents, hs]

theorem Step.events_release {ticket : Ticket} {command : String}
    (hstep : Step punctual p (.run (.release ticket command)) q) :
    Occurrence.events ⟨p, .run (.release ticket command), q⟩ =
      if p.policy.honours ticket then [.sent ⟨command, .queue, none⟩] else [] :=
  Step.events (o := ⟨p, .run (.release ticket command), q⟩) hstep

end Playback

end Choreo
