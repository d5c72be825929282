import Choreo.Proofs.Playback.Outcome

/-!
# One session seen apart from the others

A session, its playhead and the clock make a system of their own: the requests that are granted for
the session, the steps of its playhead and the passing of time are all that it takes part in.
`Run.apart` says that every run, seen from one of its sessions, is a run of such a system. Its story is
what happened to the session, which can be read off the history of the whole.
-/

namespace Choreo

/-! ## Stories -/

inductive Happening where
  | launched (start : Start)
  | paused
  | resumed
  | sought (line : Nat)
  | cancelled
  /-- Its playhead wrote something into the journal. -/
  | noted (event : Event)

structure Beat where
  time : Nat
  ignoreLooping : Bool
  happening : Happening

def Beat.note (time : Nat) (ignoreLooping : Bool) (event : Event) : Beat :=
  ⟨time, ignoreLooping, .noted event⟩

theorem Beat.notes_cons (time : Nat) (ignoreLooping : Bool) (event : Event) (events : List Event)
    (story : List Beat) :
    ((event :: events).map (note time ignoreLooping)).reverse ++ story =
      (events.map (note time ignoreLooping)).reverse ++ (note time ignoreLooping event :: story) := by
  rw [List.map_cons, List.reverse_cons, List.append_assoc, List.singleton_append]

theorem Beat.notes_sent (time : Nat) (ignoreLooping : Bool) (event : Event)
    (envelopes : List Envelope) :
    ((event :: envelopes.map Event.sent).map (note time ignoreLooping)).reverse =
      (envelopes.reverse.map fun e => note time ignoreLooping (.sent e)) ++
        [note time ignoreLooping event] := by
  simp [Function.comp_def]

namespace Playback

def Occurrence.happenings (id : SessionId) (o : Occurrence) : List Happening :=
  match o.act with
  | .serve (.launch _ start) true => if id = o.before.nextId then [.launched start] else []
  | .serve (.pause i) true => if i = id then [.paused] else []
  | .serve (.resume i) true => if i = id then [.resumed] else []
  | .serve (.seek i line) true => if i = id then [.sought line] else []
  | .serve (.cancel i) true => if i = id then [.cancelled] else []
  | .run (.play i _) => if i = id then o.events.map .noted else []
  | _ => []

def Occurrence.beats (id : SessionId) (o : Occurrence) : List Beat :=
  (o.happenings id).map (Beat.mk o.before.clock o.before.policy.ignoreLooping)

theorem beats_of_pass {o : Occurrence} {time : Nat} {id : SessionId} (hact : o.act = .pass time) :
    o.beats id = [] := by
  rw [Occurrence.beats, Occurrence.happenings, hact]
  rfl

/-- Whether a line of a session is asked for, and not in vain. -/
def Occurrence.seeks (id : SessionId) (o : Occurrence) : Bool :=
  match o.act with
  | .serve (.seek i _) true => i = id
  | _ => false

theorem seeks_iff {id : SessionId} {o : Occurrence} :
    o.seeks id = true ↔ ∃ line, .sought line ∈ (o.beats id).map Beat.happening := by
  have hhappenings : (o.beats id).map Beat.happening = o.happenings id := by
    rw [Occurrence.beats, List.map_map]
    exact List.map_id _
  rw [hhappenings]
  unfold Occurrence.seeks Occurrence.happenings
  split <;> split <;> simp_all

/-- No line of a session was asked for, unless in vain or in launching it. -/
def Unsought (id : SessionId) (history : List Occurrence) : Prop :=
  ∀ o ∈ history, o.seeks id = false

instance (id : SessionId) (history : List Occurrence) : Decidable (Unsought id history) :=
  inferInstanceAs (Decidable (∀ o ∈ history, o.seeks id = false))

/-- What happened to a session, the latest first. -/
def story (id : SessionId) (history : List Occurrence) : List Beat :=
  history.flatMap fun o => (o.beats id).reverse

theorem story_cons (id : SessionId) (o : Occurrence) (history : List Occurrence) :
    story id (o :: history) = (o.beats id).reverse ++ story id history := rfl

end Playback

/-! ## A session and its playhead -/

namespace Place

def toList : Place → List Place
  | .gone => []
  | place => [place]

def OnTime (time : Nat) : Place → Prop
  | .ready _ => False
  | .asleep wake _ => time ≤ wake
  | .gone => True

def wakeAt (time : Nat) : Place → Place
  | .asleep wake head => if wake ≤ time then .ready head else .asleep wake head
  | place => place

end Place

def Next.place (clock : Nat) : Next → Place
  | .again head | .yield head => .ready head
  | .sleep time head => .asleep (clock + time.sleepMillis) head
  | .ended => .gone

structure Solo where
  clock : Nat
  session : Session
  active : Bool
  place : Place

namespace Solo

def now (solo : Solo) : Instant := solo.clock * 1000000

def after (solo : Solo) (move : Move) : Solo :=
  { solo with
    session := move.session
    active := solo.active && move.next ≠ .ended
    place := move.next.place solo.clock }

inductive Step (punctual : Prop) (settings : Settings) (id : SessionId) (solo : Solo) :
    List Beat → Solo → Prop where
  | idle : Step punctual settings id solo [] solo
  | paused {t : Session} {ignoreLooping : Bool} (hactive : solo.active = true)
      (hpause : solo.session.pause? solo.now = some t) :
      Step punctual settings id solo [⟨solo.clock, ignoreLooping, .paused⟩]
        { solo with session := t }
  | resumed {t : Session} {ignoreLooping : Bool} (hactive : solo.active = true)
      (hresume : solo.session.resume? solo.now = some t) :
      Step punctual settings id solo [⟨solo.clock, ignoreLooping, .resumed⟩]
        { solo with session := t }
  | sought {t : Session} {ignoreLooping : Bool} {line : Nat} (hactive : solo.active = true)
      (hseek : solo.session.seek? line = some t) :
      Step punctual settings id solo [⟨solo.clock, ignoreLooping, .sought line⟩]
        { solo with session := t }
  | cancelled {ignoreLooping : Bool} (hactive : solo.active = true) :
      Step punctual settings id solo [⟨solo.clock, ignoreLooping, .cancelled⟩]
        { solo with session := solo.session.cancel?.getD solo.session, active := false }
  | played {head : Playhead} {v : Surroundings} (hplace : solo.place = .ready head)
      (hnow : v.now = solo.now) (hsettings : v.settings = settings) :
      Step punctual settings id solo
        (((head.step v solo.session).events id).map (Beat.note solo.clock v.ignoreLooping))
        (solo.after (head.step v solo.session))
  | passed {time : Nat} (htime : punctual → solo.place.OnTime time) :
      Step punctual settings id solo []
        { solo with clock := max solo.clock time, place := solo.place.wakeAt time }

/-- What is asked of an active session and granted, and what becomes of the session. -/
inductive Asked (solo : Solo) : Happening → Solo → Prop where
  | paused {t : Session} (hactive : solo.active = true)
      (hpause : solo.session.pause? solo.now = some t) : Asked solo .paused { solo with session := t }
  | resumed {t : Session} (hactive : solo.active = true)
      (hresume : solo.session.resume? solo.now = some t) :
      Asked solo .resumed { solo with session := t }
  | sought {t : Session} {line : Nat} (hactive : solo.active = true)
      (hseek : solo.session.seek? line = some t) : Asked solo (.sought line) { solo with session := t }
  | cancelled (hactive : solo.active = true) :
      Asked solo .cancelled
        { solo with session := solo.session.cancel?.getD solo.session, active := false }

theorem Asked.step {punctual : Prop} {settings : Settings} {id : SessionId} {solo solo' : Solo}
    {happening : Happening} (h : solo.Asked happening solo') (ignoreLooping : Bool) :
    Step punctual settings id solo [⟨solo.clock, ignoreLooping, happening⟩] solo' := by
  cases h with
  | paused hactive hpause => exact .paused hactive hpause
  | resumed hactive hresume => exact .resumed hactive hresume
  | sought hactive hseek => exact .sought hactive hseek
  | cancelled hactive => exact .cancelled hactive

/-- The runs of a session: its story, the latest first, and what it has come to. -/
inductive Run (punctual : Prop) (settings : Settings) (id : SessionId) :
    List Beat → Solo → Prop where
  | launched (clock : Nat) (ignoreLooping : Bool) (start : Start) (script : ScriptId)
      (lines : List String) :
      Run punctual settings id [⟨clock, ignoreLooping, .launched start⟩]
        ⟨clock, start.prepare script lines, true, .ready { lastCheck := clock * 1000000 }⟩
  | step {story beats : List Beat} {solo solo' : Solo} (run : Run punctual settings id story solo)
      (hstep : Step punctual settings id solo beats solo') :
      Run punctual settings id (beats.reverse ++ story) solo'

end Solo

/-! ## A session of a playback -/

namespace Playback

variable {p q r : Playback} {id i : SessionId} {s : Session} {solo : Solo}

/-- A playback with a session as it is seen apart from the others. -/
structure Shows (p : Playback) (id : SessionId) (solo : Solo) : Prop where
  clock : p.clock = solo.clock
  session : p.session? id = some solo.session
  active : p.isActive id = solo.active
  places : p.places id = solo.place.toList

structure Lacks (p : Playback) (id : SessionId) : Prop where
  session : p.session? id = none
  active : p.isActive id = false
  places : p.places id = []

theorem Shows.now (h : p.Shows id solo) : p.now = solo.now := by
  rw [Playback.now, Solo.now, h.clock]

/-- What a session sees of a step of the playback. -/
inductive Occurrence.Seen (punctual : Prop) (id : SessionId) (o : Occurrence) (solo : Solo) :
    Solo → Prop where
  | beside (hbeats : o.beats id = []) : Seen punctual id o solo solo
  | asked {happening : Happening} {solo' : Solo} (hasked : solo.Asked happening solo')
      (hbeats : o.beats id = [⟨solo.clock, o.before.policy.ignoreLooping, happening⟩]) :
      Seen punctual id o solo solo'
  | played {head : Playhead} (hact : o.act = .run (.play id head)) (hplace : solo.place = .ready head)
      (hbeats : o.beats id =
        ((head.step o.before.surroundings solo.session).events id).map
          (Beat.note solo.clock o.before.policy.ignoreLooping)) :
      Seen punctual id o solo (solo.after (head.step o.before.surroundings solo.session))
  | passed {time : Nat} (hact : o.act = .pass time) (htime : punctual → solo.place.OnTime time) :
      Seen punctual id o solo
        { solo with clock := max solo.clock time, place := solo.place.wakeAt time }

/-- Two playbacks that look the same from a session. -/
structure Alike (id : SessionId) (p q : Playback) : Prop where
  clock : q.clock = p.clock
  session : q.session? id = p.session? id
  active : q.isActive id = p.isActive id
  places : q.places id = p.places id

namespace Alike

theorem refl (id : SessionId) (p : Playback) : Alike id p p := ⟨rfl, rfl, rfl, rfl⟩

theorem trans (hpq : Alike id p q) (hqr : Alike id q r) : Alike id p r where
  clock := hqr.clock.trans hpq.clock
  session := hqr.session.trans hpq.session
  active := hqr.active.trans hpq.active
  places := hqr.places.trans hpq.places

theorem shows (h : Alike id p q) (hp : p.Shows id solo) : q.Shows id solo where
  clock := h.clock.trans hp.clock
  session := h.session.trans hp.session
  active := h.active.trans hp.active
  places := h.places.trans hp.places

theorem lacks (h : Alike id p q) (hp : p.Lacks id) : q.Lacks id where
  session := h.session.trans hp.session
  active := h.active.trans hp.active
  places := h.places.trans hp.places

end Alike

theorem Beside.alike (h : Beside p q) (id : SessionId) : Alike id p q :=
  ⟨h.clock, h.session? id, h.isActive id, h.places id⟩

theorem places_setSession (p : Playback) (id i : SessionId) (s : Session) :
    (p.setSession id s).places i = p.places i := by
  rw [setSession_eq]
  rfl

theorem isActive_setSession (p : Playback) (id i : SessionId) (s : Session) :
    (p.setSession id s).isActive i = p.isActive i := by
  rw [setSession_eq]
  rfl

theorem clock_setSession (p : Playback) (id : SessionId) (s : Session) :
    (p.setSession id s).clock = p.clock := by
  rw [setSession_eq]

theorem Shows.setSession (h : p.Shows id solo) (t : Session) :
    (p.setSession id t).Shows id { solo with session := t } where
  clock := (clock_setSession p id t).trans h.clock
  session := session?_setSession_self h.session t
  active := (isActive_setSession p id id t).trans h.active
  places := (places_setSession p id id t).trans h.places

theorem alike_setSession (hne : i ≠ id) (p : Playback) (t : Session) :
    Alike id p (p.setSession i t) where
  clock := clock_setSession p i t
  session := session?_setSession_of_ne hne.symm t
  active := isActive_setSession p i id t
  places := places_setSession p i id t

end Playback

end Choreo
