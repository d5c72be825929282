import Choreo.Proofs.Playback.Cancellation
import Choreo.Proofs.Script.KeptLines

/-!
# Refusals

An operation is refused in many places: the host forbids playback, the script cannot be read, nobody
has the number, the session is in the wrong status, or no command is on the line. Wherever that
happens, nothing was written before, so a refusal leaves no trace. Conversely nothing that is granted
goes unnoticed. An operation on many sessions is refused when it is by each of them.
-/

namespace Choreo

namespace Playback

variable {punctual : Prop} {settings : Settings} {history later first second : List Occurrence}
variable {p q : Playback} {id : SessionId}

/-! ## One session -/

/-- What is refused changes nothing, and whatever is granted takes something from a measure. -/
structure Spends (act : Playback → SessionId → Playback × Bool) (measure : Playback → Nat) :
    Prop where
  refused : ∀ p id, (act p id).2 = false → (act p id).1 = p
  granted : ∀ p id, (act p id).2 = true → measure (act p id).1 < measure p

theorem change_cases (p : Playback) (id : SessionId) (act : Session → Option Session) :
    p.change id act = (p, false) ∨
      ∃ s t, p.session? id = some s ∧ act s = some t ∧
        p.change id act = (p.setSession id t, true) := by
  unfold change changeFound
  split
  · cases hact : (p.session? id).bind act with
    | none => exact .inl rfl
    | some t =>
      obtain ⟨s, hs, ht⟩ := Option.bind_eq_some_iff.1 hact
      exact .inr ⟨s, t, hs, ht, rfl⟩
  · exact .inl rfl

theorem change_refused (p : Playback) (id : SessionId) (act : Session → Option Session)
    (hrefused : (p.change id act).2 = false) : (p.change id act).1 = p := by
  rcases change_cases p id act with hchange | ⟨s, t, -, -, hchange⟩
  · rw [hchange]
  · rw [hchange] at hrefused
    cases hrefused

def inStatus (status : Status) (p : Playback) : Nat := p.sessions.countP (·.status = status)

theorem inStatus_setSession {s t : Session} {status : Status} (hs : p.session? id = some s)
    (hbefore : s.status = status) (hafter : t.status ≠ status) :
    (p.setSession id t).inStatus status < p.inStatus status := by
  unfold session? at hs
  unfold setSession inStatus
  cases hnumber : id.number with
  | zero => simp [hnumber] at hs
  | succ n =>
    simp only [hnumber] at hs ⊢
    obtain ⟨hlt, hget⟩ := List.getElem?_eq_some_iff.1 hs
    have hpos : 0 < p.sessions.countP (·.status = status) :=
      List.countP_pos_iff.2 ⟨s, hget ▸ List.getElem_mem hlt, by simpa using hbefore⟩
    rw [List.countP_set hlt, hget]
    simp only [hbefore, hafter, decide_true, decide_false, if_true, Bool.false_eq_true, if_false]
    omega

theorem change_spends {act : Playback → Session → Option Session} {status : Status}
    (hact : ∀ p s t, act p s = some t → s.status = status ∧ t.status ≠ status) :
    Spends (fun p id => p.change id (act p)) (inStatus status) where
  refused p id := change_refused p id (act p)
  granted p id hgranted := by
    rcases change_cases p id (act p) with hchange | ⟨s, t, hs, ht, hchange⟩
    · rw [hchange] at hgranted
      cases hgranted
    · rw [hchange]
      exact inStatus_setSession hs (hact p s t ht).1 (hact p s t ht).2

theorem pause_spends : Spends pause (inStatus .playing) :=
  change_spends fun p s t hpause => by
    obtain ⟨hplaying, rfl⟩ := Session.eq_of_pause? hpause
    exact ⟨hplaying, nofun⟩

theorem resume_spends : Spends resume (inStatus .paused) :=
  change_spends fun p s t hresume => by
    obtain ⟨hpaused, rfl⟩ := Session.eq_of_resume? hresume
    exact ⟨hpaused, nofun⟩

theorem cancel_spends : Spends cancel (·.active.length) where
  refused p id hrefused := by
    rw [cancel_snd] at hrefused
    rw [cancel_eq, hrefused]
    rfl
  granted p id hgranted := by
    rw [cancel_snd] at hgranted
    have hactive : (p.cancel id).1.active = p.active.filter (· ≠ id) := by
      rw [cancel_eq, if_pos hgranted]
      split
      · rfl
      · rw [setSession_eq]
        rfl
    simp only [hactive]
    exact List.length_filter_lt_length_iff_exists.2
      ⟨id, by simpa [isActive] using hgranted, by simp⟩

theorem seek_eq_self_iff (p : Playback) (id : SessionId) (line : Nat) :
    (p.seek id line).2 = false ↔ (p.seek id line).1 = p := by
  refine ⟨change_refused p id _, fun hself => ?_⟩
  unfold seek at hself ⊢
  rcases change_cases p id (·.seek? line) with hchange | ⟨s, t, hs, hseek, hchange⟩
  · rw [hchange]
  · rw [hchange] at hself
    have hself : p.setSession id t = p := hself
    have ht := session?_setSession_self hs t
    rw [hself, hs] at ht
    obtain ⟨target, -, -, rfl⟩ := Session.eq_of_seek? hseek
    have hepoch := congrArg Session.epoch (Option.some.inj ht)
    simp at hepoch

theorem launch_eq_self_iff (p : Playback) (script : Script) (start : Start) :
    (p.launch script start).2.isOk = false ↔ (p.launch script start).1 = p := by
  rcases launch_cases p script start with hlaunch | ⟨lines, hlaunch⟩
  · obtain ⟨hfst, hsnd⟩ := Prod.mk.inj hlaunch
    exact iff_of_true hsnd hfst
  · obtain ⟨hfst, hsnd⟩ := Prod.mk.inj hlaunch
    rw [hfst, hsnd]
    refine iff_of_false nofun fun hself => ?_
    have hlength := congrArg (·.sessions.length) hself
    simp [launched] at hlength

namespace Spends

variable {act : Playback → SessionId → Playback × Bool} {measure : Playback → Nat}

theorem eq_self_iff (h : Spends act measure) (p : Playback) (id : SessionId) :
    (act p id).2 = false ↔ (act p id).1 = p := by
  refine ⟨h.refused p id, fun hself => ?_⟩
  cases hgranted : (act p id).2 with
  | false => rfl
  | true =>
    have hless := h.granted p id hgranted
    rw [hself] at hless
    exact absurd hless (Nat.lt_irrefl _)

/-! ## Many sessions -/

theorem forEach_le (h : Spends act measure) (p : Playback) (ids : List SessionId) :
    measure (p.forEach act ids).1 + (p.forEach act ids).2 ≤ measure p := by
  induction ids generalizing p with
  | nil => exact Nat.le_refl _
  | cons id ids ih =>
    have hrest := ih (act p id).1
    simp only [forEach]
    cases hgranted : (act p id).2 with
    | false =>
      rw [h.refused p id hgranted] at hrest ⊢
      simpa using hrest
    | true =>
      have hless := h.granted p id hgranted
      simp only [if_true]
      omega

theorem forEach_refused (h : Spends act measure) (p : Playback) (ids : List SessionId)
    (hcount : (p.forEach act ids).2 = 0) : (p.forEach act ids).1 = p := by
  induction ids generalizing p with
  | nil => rfl
  | cons id ids ih =>
    simp only [forEach, Nat.add_eq_zero_iff] at hcount ⊢
    have hrefused : (act p id).2 = false := by simpa using hcount.2
    rw [ih _ hcount.1, h.refused p id hrefused]

theorem forEach_eq_self_iff (h : Spends act measure) (p : Playback) (ids : List SessionId) :
    (p.forEach act ids).2 = 0 ↔ (p.forEach act ids).1 = p := by
  refine ⟨h.forEach_refused p ids, fun hself => ?_⟩
  have hle := h.forEach_le p ids
  rw [hself] at hle
  omega

end Spends

/-! ## Operations -/

inductive Operation where
  | launch (script : Script) (start : Start)
  | pause (id : SessionId)
  | resume (id : SessionId)
  | togglePause (id : SessionId)
  | seek (id : SessionId) (line : Nat)
  | cancel (id : SessionId)
  | cancelAll
  | pauseScript (script : ScriptId)
  | resumeScript (script : ScriptId)
  | cancelScript (script : ScriptId)

inductive Answer where
  | launched (outcome : Except LaunchError SessionId)
  | told (granted : Bool)
  | counted (count : Nat)

def Answer.refuses : Answer → Bool
  | .launched outcome => !outcome.isOk
  | .told granted => !granted
  | .counted count => count = 0

def operate (p : Playback) : Operation → Playback × Answer
  | .launch script start => ((p.launch script start).1, .launched (p.launch script start).2)
  | .pause id => ((p.pause id).1, .told (p.pause id).2)
  | .resume id => ((p.resume id).1, .told (p.resume id).2)
  | .togglePause id => ((p.togglePause id).1, .told (p.togglePause id).2)
  | .seek id line => ((p.seek id line).1, .told (p.seek id line).2)
  | .cancel id => ((p.cancel id).1, .told (p.cancel id).2)
  | .cancelAll => (p.cancelAll.1, .counted p.cancelAll.2)
  | .pauseScript script => ((p.pauseScript script).1, .counted (p.pauseScript script).2)
  | .resumeScript script => ((p.resumeScript script).1, .counted (p.resumeScript script).2)
  | .cancelScript script => ((p.cancelScript script).1, .counted (p.cancelScript script).2)

theorem togglePause_eq (p : Playback) (id : SessionId) :
    p.togglePause id = if (p.pause id).2 then p.pause id else p.resume id := by
  unfold togglePause
  split
  · next heq => rw [heq, if_pos rfl]
  · next heq =>
    have hself := pause_spends.refused p id (by rw [heq])
    rw [heq] at hself ⊢
    rw [if_neg Bool.false_ne_true, ← hself]

theorem refuses_iff (p : Playback) (operation : Operation) :
    (p.operate operation).2.refuses = true ↔ (p.operate operation).1 = p := by
  have htold (granted : Bool) : (Answer.told granted).refuses = true ↔ granted = false := by
    simp [Answer.refuses]
  have hcounted (count : Nat) : (Answer.counted count).refuses = true ↔ count = 0 :=
    decide_eq_true_iff
  cases operation with
  | launch script start =>
    refine .trans ?_ (launch_eq_self_iff p script start)
    simp [operate, Answer.refuses]
  | pause id => exact (htold _).trans (pause_spends.eq_self_iff p id)
  | resume id => exact (htold _).trans (resume_spends.eq_self_iff p id)
  | togglePause id =>
    refine (htold _).trans ?_
    simp only [operate]
    rw [togglePause_eq]
    split
    · exact pause_spends.eq_self_iff p id
    · exact resume_spends.eq_self_iff p id
  | seek id line => exact (htold _).trans (seek_eq_self_iff p id line)
  | cancel id => exact (htold _).trans (cancel_spends.eq_self_iff p id)
  | cancelAll => exact (hcounted _).trans (cancel_spends.forEach_eq_self_iff p _)
  | pauseScript script =>
    rw [operate, pauseScript_eq]
    exact (hcounted _).trans (pause_spends.forEach_eq_self_iff p _)
  | resumeScript script =>
    rw [operate, resumeScript_eq]
    exact (hcounted _).trans (resume_spends.forEach_eq_self_iff p _)
  | cancelScript script => exact (hcounted _).trans (cancel_spends.forEach_eq_self_iff p _)

/-! ## Operations in a run -/

def requests (p : Playback) : Operation → List Request
  | .launch script start => [.launch script start]
  | .pause id => [.pause id]
  | .resume id => [.resume id]
  | .togglePause id => if (p.pause id).2 then [.pause id] else [.pause id, .resume id]
  | .seek id line => [.seek id line]
  | .cancel id => [.cancel id]
  | .cancelAll => p.active.map .cancel
  | .pauseScript script => (p.findByScript script).map .pause
  | .resumeScript script => (p.findByScript script).map .resume
  | .cancelScript script => (p.findByScript script).map .cancel

def askAll : List Request → List Occurrence × Playback → List Occurrence × Playback
  | [], played => played
  | request :: requests, played => askAll requests (ask request played)

def issue (operation : Operation) (played : List Occurrence × Playback) :
    List Occurrence × Playback :=
  askAll (played.2.requests operation) played

theorem Run.askAll {played : List Occurrence × Playback}
    (run : Run punctual settings played.1 played.2) (requests : List Request) :
    Run punctual settings (askAll requests played).1 (askAll requests played).2 := by
  induction requests generalizing played with
  | nil => exact run
  | cons request requests ih => exact ih (run.ask request)

theorem askAll_map_snd (toRequest : SessionId → Request) (ids : List SessionId)
    (played : List Occurrence × Playback) :
    (askAll (ids.map toRequest) played).2 =
      (played.2.forEach (fun p id => p.serve (toRequest id)) ids).1 := by
  induction ids generalizing played with
  | nil => rfl
  | cons id ids ih => exact ih _

theorem issue_snd (operation : Operation) (played : List Occurrence × Playback) :
    (issue operation played).2 = (played.2.operate operation).1 := by
  cases operation with
  | togglePause id =>
    simp only [issue, requests, operate, togglePause_eq]
    cases hpause : (played.2.pause id).2 with
    | true => rfl
    | false =>
      -- Only a session that refused to pause is asked to resume, and the refusal left no trace.
      have hself := pause_spends.refused played.2 id hpause
      show ((played.2.pause id).1.resume id).1 = (played.2.resume id).1
      rw [hself]
  | cancelAll => exact askAll_map_snd .cancel _ played
  | pauseScript script =>
    rw [operate, pauseScript_eq]
    exact askAll_map_snd .pause _ played
  | resumeScript script =>
    rw [operate, resumeScript_eq]
    exact askAll_map_snd .resume _ played
  | cancelScript script => exact askAll_map_snd .cancel _ played
  | _ => rfl

/-- The history of a run tells where it ends. -/
theorem Run.unique (hfirst : Run punctual settings history p)
    (hsecond : Run punctual settings history q) : p = q := by
  cases hfirst with
  | start => cases hsecond with
    | start => rfl
  | step => cases hsecond with
    | step => rfl

/-- Two runs that have come to the same go on in the same ways. -/
theorem Run.append_iff (hfirst : Run punctual settings first p)
    (hsecond : Run punctual settings second p) :
    Run punctual settings (later ++ first) q ↔ Run punctual settings (later ++ second) q := by
  induction later generalizing q with
  | nil =>
    constructor
    · intro run
      exact run.unique hfirst ▸ hsecond
    · intro run
      exact run.unique hsecond ▸ hfirst
  | cons o later ih =>
    constructor
    · rintro (_ | ⟨run, hstep⟩)
      exact (ih.1 run).step hstep
    · rintro (_ | ⟨run, hstep⟩)
      exact (ih.2 run).step hstep

theorem lines_of_launch {script : Script} {start : Start} {cause : SourceError}
    (hlaunch : (p.launch script start).2 = .error (.source cause)) :
    script.lines.2 = .error cause := by
  unfold launch at hlaunch
  split at hlaunch
  · split at hlaunch
    · next hlines =>
      cases hlaunch
      exact hlines
    · cases hlaunch
  · cases hlaunch

/-- An operation is refused if and only if it leaves the playback as it was, so a run goes on after a
refusal exactly as it would have without the operation. A script that could not be read is left as it
was but for the count of its readings. -/
theorem Run.refusals_leave_no_trace (run : Run punctual settings history p)
    (operation : Operation) :
    Run punctual settings (issue operation (history, p)).1 (p.operate operation).1 ∧
    ((p.operate operation).2.refuses = true ↔ (p.operate operation).1 = p) ∧
    ((p.operate operation).2.refuses = true → ∀ later q,
      Run punctual settings (later ++ (issue operation (history, p)).1) q ↔
        Run punctual settings (later ++ history) q) ∧
    ∀ script start cause,
      (p.operate (.launch script start)).2 = .launched (.error (.source cause)) →
        script.lines = ({ script with reads := script.reads + 1 }, .error cause) := by
  have hissued : Run punctual settings (issue operation (history, p)).1
      (p.operate operation).1 := by
    rw [← issue_snd operation (history, p)]
    exact Run.askAll run _
  refine ⟨hissued, refuses_iff p operation, fun hrefuses later q => ?_,
    fun script start cause hlaunch => ?_⟩
  · rw [(refuses_iff p operation).1 hrefuses] at hissued
    exact hissued.append_iff run
  · have hlines := lines_of_launch (Answer.launched.inj hlaunch)
    exact Prod.ext (Script.lines_of_error hlines) hlines

/-- A paused session, whose script is paused once more before the session is resumed. -/
theorem refusals_leave_no_trace_paused :
    let launched := ask (.launch (.inline "song" "/a <wait.1>") (.top none)) ([], start {})
    let paused := ask (.pause ⟨1⟩) (follow (fun _ => 0) 10 launched.1 launched.2)
    let again := issue (.pauseScript (.inline "song")) paused
    let resumed := ask (.resume ⟨1⟩) again
    let o : Occurrence :=
      ⟨again.2, .serve (.resume ⟨1⟩) (again.2.serve (.resume ⟨1⟩)).2, resumed.2⟩
    paused.2.findByScript (.inline "song") = [⟨1⟩] ∧ again.1.length = paused.1.length + 1 ∧
      again.2 = paused.2 ∧ (paused.2.resume ⟨1⟩).2 = true ∧
      Run True {} ([o] ++ again.1) resumed.2 ∧ Run True {} ([o] ++ paused.1) resumed.2 := by
  intro launched paused again resumed o
  have hlaunched := Run.launched True {} (.inline "song" "/a <wait.1>") (.top none)
  have hpaused : Run True {} paused.1 paused.2 :=
    (hlaunched.follow (fun _ => 0) 10).ask (.pause ⟨1⟩)
  have hfound : paused.2.findByScript (.inline "song") = [⟨1⟩] := by decide +kernel
  have hrefuses : (paused.2.operate (.pauseScript (.inline "song"))).2.refuses = true := by
    decide +kernel
  have hresume : (paused.2.resume ⟨1⟩).2 = true := by decide +kernel
  have hlength : again.1.length = paused.1.length + 1 := by decide +kernel
  -- From here on only what was found out about the paused session counts, not how it came about.
  clear_value paused
  obtain ⟨history, p⟩ := paused
  obtain ⟨hagain, hunchanged, hgoes, -⟩ :=
    Run.refusals_leave_no_trace hpaused (.pauseScript (.inline "song"))
  have hsnd : again.2 = (p.operate (.pauseScript (.inline "song"))).1 := issue_snd _ (history, p)
  have hissued : Run True {} again.1 again.2 := hsnd ▸ hagain
  have hresumed : Run True {} ([o] ++ again.1) resumed.2 := hissued.ask (.resume ⟨1⟩)
  exact ⟨hfound, hlength, hsnd.trans (hunchanged.1 hrefuses), hresume, hresumed,
    (hgoes hrefuses [o] resumed.2).1 hresumed⟩

end Playback

end Choreo
